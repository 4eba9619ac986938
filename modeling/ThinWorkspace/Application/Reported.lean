/-
# What a creation reports is what is stored

`create` answers with the summary of the receipt it committed
(`createImpl_reports`), and the store keeps that receipt readable
(`ThinWorkspace.Metadata.Readable`).  Together: the summary a creation returned
is the one `final_materialization` and `inspect` return for as long as the row is
active, after any later calls.
-/

import ThinWorkspace.Application.CreateOutcome
import ThinWorkspace.Metadata.Readable

namespace ThinWorkspace
namespace Application

open ThinWorkspace.Core Lib Ports
open Metadata (Database)
open Program (Only Safe)

variable {json : JsonLibrary} {installation : InstallationRecord} {request : CreateRequest}
  {materializers : Materializers} {w w' : World} {α : Type} {x : UseCase α}

/-! ### The report of a creation

The completion is the last writing call of a creation, and its receipt is the one in the
outcome.  So of each run it holds that what was committed was reported. -/

/-- The call that commits a receipt: behind it the workspace is Ready. -/
def PortCall.isCompletion : PortCall → Bool
  | .completeMaterialization _ _ _ _ => true
  | _ => false

/-- A call that writes nothing commits no receipt. -/
theorem not_isCompletion_of_not_writesStore (c : PortCall) (h : c.writesStore = false) :
    c.isCompletion = false := by
  cases c <;> first | rfl | cases h

/-- No receipt was committed so far in the run. -/
def Uncommitted (w : World) : Prop :=
  ∀ e ∈ w.history, e.call.isCompletion = false

/-- Nothing is committed by a part without a completion. -/
theorem Uncommitted.calm (h : Uncommitted w) (hw : Calm PortCall.isCompletion w w') :
    Uncommitted w' := by
  obtain ⟨events, he, hcalm⟩ := hw.events
  intro e hmem
  rw [he] at hmem
  rcases List.mem_append.mp hmem with hmem | hmem
  · exact h e hmem
  · exact hcalm e hmem

/-- The outcome reports the receipt of every commit of the run. -/
def CommitsReported (outcome : Except UseCaseError CreateOutcome) (w : World) : Prop :=
  ∀ id plan receipt now record,
    ⟨.completeMaterialization id plan receipt now, .ok record⟩ ∈ w.history →
      outcome = .ok ⟨record, summaryOf receipt, true⟩

/-- Where nothing was committed there is nothing to report. -/
theorem Uncommitted.reported (h : Uncommitted w)
    (outcome : Except UseCaseError CreateOutcome) : CommitsReported outcome w := by
  intro id plan receipt now record hmem
  cases h _ hmem

/-- A part that failed has committed nothing. -/
theorem CommitsReported.error_calm {e : UseCaseError} (h : CommitsReported (.error e) w)
    (hw : Calm PortCall.isCompletion w w') (outcome : Except UseCaseError CreateOutcome) :
    CommitsReported outcome w' := by
  intro id plan receipt now record hmem
  cases h id plan receipt now record (hw.mem_of_kind hmem rfl)

/-- A part without a completion commits nothing. -/
theorem uncommitted_part (h : Uncommitted w) (hx : Only (fun c => c.isCompletion = false) x) :
    Safe (portEnvironment json installation) (fun _ _ => True)
      (fun _ w' => Uncommitted w') x w :=
  (calm_safe (fun _ _ _ => trivial) hx).mono fun _ _ hw => h.calm hw

/-- The commit is the last call, and what it commits is reported.  Everything before the commit
commits nothing, and the outcome is built from the commit's own answer. -/
theorem finishReserved_reports {reservation : WorkspaceReservation} {prepared : PreparedWorkspace}
    {plan : MaterializationPlan} {receipt : MaterializationReceipt} (h : Uncommitted w) :
    Safe (portEnvironment json installation) (fun _ _ => True) CommitsReported
      (finishReserved request reservation prepared plan receipt) w := by
  refine Safe.bind (x := port _ _) (uncommitted_part h (Only.orFail (only_call rfl)))
    (fun _ w₁ h₁ => ?_) fun _ _ hw => hw.reported _
  refine Safe.bind (x := port _ _) (uncommitted_part h₁ (Only.orFail (only_call rfl)))
    (fun _ w₂ h₂ => ?_) fun _ _ hw => hw.reported _
  refine Safe.bind (x := port _ _) (uncommitted_part h₂ (Only.orFail (only_call rfl)))
    (fun _ w₃ h₃ => ?_) fun _ _ hw => hw.reported _
  refine Safe.bind (x := port _ _) (uncommitted_part h₃ (Only.orFail (only_call rfl)))
    (fun _ w₄ h₄ => ?_) fun _ _ hw => hw.reported _
  refine ⟨trivial, fun completed w₅ h₅ => ?_⟩
  have hlast : ∀ id plan' receipt' now record,
      ⟨.completeMaterialization id plan' receipt' now, .ok record⟩ ∈ w₅.history →
        (⟨.completeMaterialization id plan' receipt' now, .ok record⟩ : Event) =
          ⟨.completeMaterialization reservation.workspaceId plan receipt request.now,
            completed⟩ := by
    intro id plan' receipt' now record hmem
    rw [step_history h₅] at hmem
    rcases List.mem_append.mp hmem with hmem | hmem
    · cases h₄ _ hmem
    · exact List.mem_singleton.mp hmem
  rcases completed with e | committed
  · intro id plan' receipt' now record hmem
    cases hlast id plan' receipt' now record hmem
  · intro id plan' receipt' now record hmem
    cases hlast id plan' receipt' now record hmem
    rfl

/-- A creation behind its reservation reports what it commits. -/
theorem createReserved_reports {dataRoot : AbsolutePath} {reservation : WorkspaceReservation}
    (h : Uncommitted w) :
    Safe (portEnvironment json installation) (fun _ _ => True) CommitsReported
      (createReserved request materializers dataRoot reservation) w := by
  refine Safe.bind (x := port _ _) (uncommitted_part h (Only.orFail (only_call rfl)))
    (fun prepared w₁ h₁ => ?_) fun _ _ hw => hw.reported _
  refine Safe.bind (x := unlessFail _ _) (uncommitted_part h₁ only_unlessFail)
    (fun _ w₂ h₂ => ?_) fun _ _ hw => hw.reported _
  refine Safe.bind (x := planPrepared _ _ _ _ _ _) (uncommitted_part h₂
    ((only_planPrepared.mono not_writesStore_of_observes).mono
      not_isCompletion_of_not_writesStore))
    (fun plan w₃ h₃ => ?_) fun _ _ hw => hw.reported _
  refine Safe.bind (x := materializePrepared _ _ _ _ _) (uncommitted_part h₃
    (reading_materializePrepared.mono not_isCompletion_of_not_writesStore))
    (fun made w₄ h₄ => ?_) fun _ _ hw => hw.reported _
  exact finishReserved_reports h₄

/-- So does a creation that makes its reservation.  The reservation commits no receipt, and a
failure of the reserved part has committed none. -/
theorem reserveAndCreate_reports {identity : InstallationIdentity}
    {reservation : WorkspaceReservation} (h : Uncommitted w) :
    Safe (portEnvironment json installation) (fun _ _ => True) CommitsReported
      (reserveAndCreate request materializers identity reservation) w := by
  refine Safe.bind (x := port _ _) (uncommitted_part h (Only.orFail (only_call rfl)))
    (fun _ w₁ h₁ => ?_) fun _ _ hw => hw.reported _
  have hreserved : Safe (portEnvironment json installation) (fun _ _ => True) CommitsReported
      ((createReserved request materializers identity.dataRoot reservation).mapError
        fun error => error.withWorkspaceId reservation.workspaceId) w₁ := by
    refine Safe.mapError ((createReserved_reports h₁).mono fun outcome w₂ h₂ => ?_)
    cases outcome with
    | ok outcome => exact h₂
    | error e => exact h₂.error_calm (Calm.refl _) _
  refine Safe.bind hreserved.attempt (fun result w₂ h₂ => ?_) fun e w₂ h₂ => ?_
  · obtain ⟨_, ⟨⟩, h₂⟩ := h₂
    cases result with
    | ok outcome => exact h₂
    | error e =>
      refine ⟨trivial, fun recorded w₃ h₃ => ?_⟩
      have hcalm : Calm PortCall.isCompletion w₂ w₃ := Calm.step rfl h₃
      cases recorded with
      | ok record => exact h₂.error_calm hcalm _
      | error recordError => exact h₂.error_calm hcalm _
  · obtain ⟨_, ⟨⟩, _⟩ := h₂

/-- **The answer of a creation.**  Whatever a run of `create` commits, it reports.  Up to the
reservation it only observes, which commits nothing. -/
theorem createImpl_reports {db : Database} :
    Safe (portEnvironment json installation) (fun _ _ => True) CommitsReported
      (createImpl request materializers) ⟨db, []⟩ := by
  have hobserving : ∀ (c : PortCall), c.observes = true → c.isCompletion = false :=
    fun c hc => not_isCompletion_of_not_writesStore c (not_writesStore_of_observes c hc)
  have h : Uncommitted ⟨db, []⟩ := fun e he => absurd he List.not_mem_nil
  refine Safe.bind (x := unlessFail _ _) (uncommitted_part h only_unlessFail)
    (fun _ w₁ h₁ => ?_) fun _ _ hw => hw.reported _
  refine Safe.bind (x := readIdentity) (uncommitted_part h₁
    ((only_readIdentity.mono observes_of_opensStore).mono hobserving))
    (fun identity w₂ h₂ => ?_) fun _ _ hw => hw.reported _
  refine Safe.bind (x := unlessFail _ _) (uncommitted_part h₂ only_unlessFail)
    (fun _ w₃ h₃ => ?_) fun _ _ hw => hw.reported _
  refine Safe.bind (x := openMetadata _ _) (uncommitted_part h₃
    ((only_openMetadata.mono observes_of_opensStore).mono hobserving))
    (fun _ w₄ h₄ => ?_) fun _ _ hw => hw.reported _
  refine Safe.bind (x := port _ _) (uncommitted_part h₄ (Only.orFail (only_call rfl)))
    (fun active w₅ h₅ => ?_) fun _ _ hw => hw.reported _
  cases findByName request.name active with
  | some existing =>
    exact (uncommitted_part h₅ (only_createExisting.mono hobserving)).mono
      fun outcome _ hw => hw.reported outcome
  | none =>
    refine Safe.bind (x := observe _ _ _) (uncommitted_part h₅ (only_observe.mono hobserving))
      (fun reservation w₆ h₆ => ?_) fun _ _ hw => hw.reported _
    exact reserveAndCreate_reports h₆

/-! ### The stored summary

The summary in the outcome and the summary that a reader finds are made of one receipt: the
first by the use case, the second by the decoder of the stored document. -/

/-- What holds of a reachable database: a completion stores what its row's volume
decodes to the receipt's summary, both readers return that summary as long as the
row is active, they fail on no Ready row, and `create` returns the summary of what
it commits. -/
structure ReadyRowsReadable (json : JsonLibrary) (installation : InstallationRecord)
    (db : Database) : Prop where
  stored : ∀ id plan receipt now faults record c,
    Metadata.Call.Faithful json (.completeMaterialization id plan receipt now) →
    Metadata.completeMaterialization json id plan receipt now ⟨db, faults⟩ = .ok record c →
      ∃ row stored, c.data.selectWorkspace id.toText = some row ∧ row.state = "ready" ∧
        c.data.selectReceipt id.toText = some stored ∧
        stored.receiptJson = json.toText (Metadata.finalReceiptJson receipt) ∧
        stored.Tells json row.targetVolumeId (summaryOf receipt)
  kept : ∀ id plan receipt now faults record c,
    Metadata.Call.Faithful json (.completeMaterialization id plan receipt now) →
    Metadata.completeMaterialization json id plan receipt now ⟨db, faults⟩ = .ok record c →
      ∀ later : List (Metadata.Call × List Bool), (∀ call ∈ later, call.1.Faithful json) →
        ∀ row ∈ (Metadata.runCalls json installation c.data later).workspaces,
          row.workspaceId = id.toText →
            (Metadata.runCalls json installation c.data later).Reports json id (summaryOf receipt)
  ready : ∀ row ∈ db.workspaces, row.state = "ready" →
    ∃ id summary, row.workspaceId = id.toText ∧ db.Reports json id summary
  reported : ∀ request materializers outcome w,
    Program.Returns (portEnvironment json installation) (createImpl request materializers)
        ⟨db, []⟩ outcome w →
      ∀ id plan receipt now record,
        ⟨.completeMaterialization id plan receipt now, .ok record⟩ ∈ w.history →
          outcome = .ok ⟨record, summaryOf receipt, true⟩

/-- **Every Ready row says what its creation reported.**  On every database that is
reached by calls whose plans and receipts are values of the program, the stored
receipts read back as `ReadyRowsReadable` says. -/
theorem ready_rows_readable (json : JsonLibrary) (installation : InstallationRecord)
    (calls : List (Metadata.Call × List Bool))
    (hcalls : ∀ call ∈ calls, call.1.Faithful json) :
    ReadyRowsReadable json installation
      (Metadata.runCalls json installation (.initialized installation) calls) := by
  have hdb := Metadata.consistent_runCalls json installation calls
  have hencoded := Metadata.encoded_runCalls json installation calls
  have hreadable : (Metadata.runCalls json installation (.initialized installation)
      calls).Readable json :=
    Metadata.readable_runCalls hcalls (Metadata.Database.initialized_consistent installation)
      Metadata.readable_initialized
  constructor
  case stored =>
    intro id plan receipt now faults record c hfaithful hrun
    obtain ⟨row, hrow, hready, _, htells⟩ :=
      Metadata.completeMaterialization_tells hdb.ids_nodup hfaithful hrun
    have hshown := Metadata.completeMaterialization_shows hdb hfaithful hrun
    obtain ⟨hmem, hid⟩ := Metadata.selectWorkspace_mem hrow
    have hstored := (hshown.tells row hmem hid).1
    exact ⟨row, _, hrow, hready,
      Metadata.selectReceipt_of_mem hshown.consistent.receipt_ids_nodup hstored, rfl, htells⟩
  case kept =>
    intro id plan receipt now faults record c hfaithful hrun later hlater row hrow hid
    have hshown := Metadata.completeMaterialization_shows hdb hfaithful hrun
    have hchange := (Metadata.completeMaterialization_change json id plan receipt now).ok hrun
    have hcall : Metadata.Call.run json installation
        (.completeMaterialization id plan receipt now) faults
        (Metadata.runCalls json installation (.initialized installation) calls) = c.data := by
      simp only [Metadata.Call.run, Session.dataAfter, hrun]
    have hreadable' : c.data.Readable json := hcall ▸ Metadata.Call.readable hdb hfaithful hreadable
    exact hshown.reports (hchange.encoded hencoded) hreadable' rfl hlater hrow hid
  case ready =>
    intro row hrow hready
    obtain ⟨stored, hstored, hid⟩ := hdb.ready_receipt row hrow hready
    obtain ⟨summary, htells⟩ := hreadable row hrow stored hstored hid
    obtain ⟨r, rfl⟩ := hencoded row hrow
    exact ⟨r.reservation.workspaceId, summary, rfl,
      Metadata.reports_of_tells hdb hencoded hreadable hrow rfl hstored hid htells⟩
  case reported =>
    intro request materializers outcome w run
    exact createImpl_reports.of_returns run

/-- The document of `sampleReceipt`, keys in order. -/
def sampleDocument : String :=
  "\x7b\"actual_adapter\":\"btrfs_reflink\",\"actual_mode\":\"cow_clone\"," ++
  "\"clone_calls_succeeded\":0,\"cow_evidence\":\"not_used\",\"created\":[]," ++
  "\"effective_mode\":\"cow_clone\",\"elapsed_millis\":0,\"failed_attempts\":[]," ++
  "\"failure_kind\":null,\"fallback_reason\":null,\"logical_bytes\":0," ++
  "\"outcome\":\"succeeded\",\"physical_bytes\":0," ++
  "\"probe_evidence_digest\":\"0000000000000000000000000000000000000000000000000000000000000000\"," ++
  "\"regular_file_count\":0,\"requested_mode\":\"cow_clone\"," ++
  "\"rollback\":\x7b\"quarantined_hex\":[],\"remaining\":[],\"removed_hex\":[]," ++
  "\"status\":\"not_needed\",\"unconfirmed_quarantined_hex\":[]\x7d," ++
  "\"source_manifest_digest\":\"0000000000000000000000000000000000000000000000000000000000000000\"," ++
  "\"source_volume_id\":\"00000000-0000-7000-8000-000000000003\"," ++
  "\"target_manifest_digest\":\"0000000000000000000000000000000000000000000000000000000000000000\"," ++
  "\"target_volume_id\":\"00000000-0000-7000-8000-000000000003\"," ++
  "\"unconfirmed_staging\":null\x7d"

/-- A library of one document, printed as the text. -/
def documentLibrary (text : String) (value : Json) : JsonLibrary where
  toText _ := text
  fromText other := if other = text then some value else none
  jsonValid other := decide (other = text)

/-- The library of one document reads it back. -/
theorem documentLibrary_readsBack (text : String) (value : Json) :
    (documentLibrary text value).ReadsBack value where
  fromText_toText := if_pos rfl
  valid_toText := decide_eq_true rfl

/-- The library of the document of `sampleReceipt`: it prints that text and reads it back. -/
def sampleDocumentLibrary : JsonLibrary :=
  documentLibrary sampleDocument (Metadata.finalReceiptJson sampleReceipt)

/-- The sample plan is one that a constructor returned. -/
theorem samplePlan_built : samplePlan.Built := by
  have h : MaterializationPlan.forCowClone sampleReport .allowFullCopyOnCowUnsupported =
      .ok samplePlan := rfl
  exact .cowClone h

/-- The sample receipt is one that a constructor returned. -/
theorem sampleReceipt_built : sampleReceipt.Built := by
  have h : MaterializationReceipt.successfulCowClone samplePlan 0 0 [] sampleDigest sampleDigest
      0 0 (some 0) = .ok sampleReceipt := rfl
  exact .cowClone h

/-- The stored summaries read back after the creation of `sampleReservation`, by a library that
prints and reads its receipt. -/
theorem ready_rows_readable_cloned :
    ReadyRowsReadable sampleDocumentLibrary sampleInstallation
      (Metadata.runCalls sampleDocumentLibrary sampleInstallation
        (.initialized sampleInstallation)
        [(.reserveWorkspace sampleReservation, []),
          (.completeMaterialization sampleReservation.workspaceId samplePlan sampleReceipt
            sampleLater, [])]) := by
  refine ready_rows_readable sampleDocumentLibrary sampleInstallation _ fun call hcall => ?_
  rcases List.mem_cons.mp hcall with rfl | hcall
  · trivial
  · rw [List.mem_singleton.mp hcall]
    exact ⟨samplePlan_built, sampleReceipt_built, documentLibrary_readsBack _ _⟩

end Application
end ThinWorkspace
