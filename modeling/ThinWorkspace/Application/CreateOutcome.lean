/-
# The outcome of a creation

Once the reservation is in, `create` either returns with the row Ready and its
receipt stored, or fails with the row in `error`.  The one write of
`createReserved` is its last call, so everything before it leaves the row in
`creating` (`Creating`), and `recordOutcome` is on the way of every failure.
-/

import ThinWorkspace.Application.Create
import ThinWorkspace.Application.World

namespace ThinWorkspace
namespace Application

open ThinWorkspace.Core Lib Ports
open Metadata (Database)
open Program (Only Safe)

/-! ### What an outcome promises

`Settled` is the postcondition of a creation that made its reservation.  A success has the
row Ready with the receipt it summarises; a failure has the row in `error` with its code,
and if the call that records it fails as well, the row is not Ready all the same. -/

/-- The row of the identity is Ready, and its receipt is the one the outcome
summarises. -/
def Finished (json : JsonLibrary) (id : WorkspaceId) (outcome : CreateOutcome) (w : World) :
    Prop :=
  ∃ row receipt recordedAt, w.db.selectWorkspace id.toText = some row ∧ row.state = "ready" ∧
    row.intoRecord = .ok outcome.record ∧
    w.db.selectReceipt id.toText = some (Metadata.receiptRow json id receipt recordedAt) ∧
    outcome.materialization = summaryOf receipt

/-- The row of the identity is not Ready; it is in `error` with the code of the
failure, unless the call that records failures failed. -/
def Abandoned (id : WorkspaceId) (error : UseCaseError) (w : World) : Prop :=
  ∃ row, w.db.selectWorkspace id.toText = some row ∧ row.state ≠ "ready" ∧
    (row.state = "error" ∧ row.lastErrorCode = some error.diagnostic.code.asStr ∨
      ∃ expected code now e, ⟨.recordFailure id expected code now, .error e⟩ ∈ w.history)

/-- What the outcome of a creation says about the row. -/
def Settled (json : JsonLibrary) (id : WorkspaceId) (outcome : Except UseCaseError CreateOutcome)
    (w : World) : Prop :=
  match outcome with
  | .ok o => Finished json id o w
  | .error e => Abandoned id e w

/-- The row of the identity is still being created. -/
structure Creating (id : WorkspaceId) (w : World) : Prop where
  consistent : w.db.Consistent
  row : ∃ row, w.db.selectWorkspace id.toText = some row ∧ row.state = "creating"

/-! ### Parts that only read the store

Between its writes a creation makes long stretches of calls that only read.  `reading_part`
carries a fact about the rows over such a stretch, so the specifications below mention the
four writing calls only. -/

/-- The calls that write to the store, whatever they write. -/
def PortCall.writesStore : PortCall → Bool
  | .reserveWorkspace _ | .completeMaterialization _ _ _ _ | .recordFailure _ _ _ _
  | .beginRemoval _ _ _ _ | .completeDeletion _ _ _ => true
  | _ => false

variable {json : JsonLibrary} {installation : InstallationRecord} {request : CreateRequest}
  {materializers : Materializers} {w w' : World} {α : Type} {x : UseCase α} {id : WorkspaceId}

/-- A step of a session that only reads leaves the database as it is. -/
theorem StoreStep.reads {session : Metadata.Store α} {db db' : Database}
    {result : Except PortError α} (hs : Session.Reads session)
    (h : StoreStep session db result db') : db' = db := by
  cases h with
  | returned run => exact (hs.ok run).symm
  | interrupted run => exact (hs.error run).symm
  | refused => rfl

/-- A call that does not write leaves the database as it is. -/
theorem effect_reading {c : PortCall} {r : c.Result} {db db' : Database}
    (hc : c.writesStore = false) (h : c.effect json installation db r db') : db' = db := by
  cases c
  case inspectMetadata => exact h.reads reads_inspectSnapshot
  case workspaces => exact h.reads reads_workspaces
  case workspace => exact h.reads Metadata.reads_readWorkspace
  case deletionTombstone => exact h.reads reads_deletionTombstone
  case finalMaterialization => exact h.reads reads_finalMaterialization
  all_goals first | exact h | cases hc

/-- A step of such a call does too: the database is what it was. -/
theorem step_reading {c : PortCall} {r : c.Result} (hc : c.writesStore = false)
    (h : (portEnvironment json installation).step w c r w') : w'.db = w.db :=
  effect_reading hc h.2

/-- A part that only reads the store leaves it and adds no write to the history. -/
theorem reading_part_guarded {guard : PortCall → World → Prop}
    (hguard : ∀ c w, c.writesStore = false → guard c w)
    (hx : Only (fun c => c.writesStore = false) x) :
    Safe (portEnvironment json installation) guard
      (fun _ w' => Calm PortCall.writesStore w w' ∧ w'.db = w.db) x w :=
  hx.safe (R := fun w w' => Calm PortCall.writesStore w w' ∧ w'.db = w.db)
    (fun w => ⟨Calm.refl w, rfl⟩)
    (fun _ _ _ h₁ h₂ => ⟨h₁.1.trans h₂.1, h₂.2.trans h₁.2⟩) hguard
    fun _ _ _ _ hc step => ⟨Calm.step hc step, step_reading hc step⟩

/-- A part without a write leaves the database, and makes no writing call. -/
theorem reading_part (hx : Only (fun c => c.writesStore = false) x) :
    Safe (portEnvironment json installation) (fun _ _ => True)
      (fun _ w' => Calm PortCall.writesStore w w' ∧ w'.db = w.db) x w :=
  reading_part_guarded (fun _ _ _ => trivial) hx

section Reading

variable {reservation : WorkspaceReservation} {prepared : PreparedWorkspace}
  {materialize : MaterializeRequest} {plan : MaterializationPlan}

/-- An observing call writes nothing to the store. -/
theorem not_writesStore_of_observes (c : PortCall) (h : c.observes = true) :
    c.writesStore = false := by
  cases c <;> first | rfl | cases h

/-- A part that only observes leaves the database, and adds no write to the history. -/
theorem observing_part (hx : Only (fun c => c.observes = true) x) :
    Safe (portEnvironment json installation) (fun _ _ => True)
      (fun _ w' => Calm PortCall.writesStore w w' ∧ w'.db = w.db) x w :=
  reading_part (hx.mono not_writesStore_of_observes)

/-- Falling back to a full copy writes nothing to the store. -/
theorem reading_fallBack {failure : MaterializationFailure} :
    Only (fun c => c.writesStore = false)
      (fallBack request materializers prepared materialize plan failure) := by
  refine Only.bind only_unlessFail fun _ => Only.bind only_unlessFail fun _ => ?_
  refine Only.bind (Only.orFail (only_call rfl)) fun _ =>
    Only.bind (only_requirePreparedTarget.mono not_writesStore_of_observes).mapError fun _ => ?_
  refine Only.bind only_check fun _ => Only.bind only_unlessFail fun _ => ?_
  exact Only.bind (Only.orFail (only_call rfl)) fun _ => Program.only_pure

/-- Materializing the prepared directories writes nothing to the store. -/
theorem reading_materializePrepared :
    Only (fun c => c.writesStore = false)
      (materializePrepared request materializers prepared materialize plan) := by
  unfold materializePrepared
  split
  · exact Only.bind only_unlessFail fun _ =>
      Only.bind (Only.orFail (only_call rfl)) fun _ => Program.only_pure
  · exact Only.bind (only_call rfl) fun
      | .ok _ => Program.only_pure
      | .error _ => reading_fallBack

end Reading

/-! ### The reserved part

The row is in `creating` throughout the reserved part until its completion, and the
completion is its last writing call.  So the part either completes, or leaves the row as the
reservation made it. -/

/-- A workspace that is being created still is after a part that writes nothing. -/
theorem Creating.calm (h : Creating id w) (hw : Calm PortCall.writesStore w w' ∧ w'.db = w.db) :
    Creating id w' :=
  ⟨hw.2 ▸ h.consistent, hw.2 ▸ h.row⟩

/-- A part that only reads the store leaves the row in `creating`. -/
theorem creating_part (h : Creating id w) (hx : Only (fun c => c.writesStore = false) x) :
    Safe (portEnvironment json installation) (fun _ _ => True)
      (fun _ w' => Creating id w') x w :=
  (reading_part hx).mono fun _ _ hw => h.calm hw

/-- What `create_reserved` leaves: a finished row, or one still being created. -/
def ReservedOutcome (json : JsonLibrary) (id : WorkspaceId)
    (outcome : Except UseCaseError CreateOutcome) (w : World) : Prop :=
  w.db.Consistent ∧ match outcome with
    | .ok o => Finished json id o w
    | .error _ => Creating id w

/-- The end of the reserved part either completes the row with its receipt or leaves it in
`creating`.  The calls before the completion leave the row in `creating`; the completion is a
transaction, so it either changes nothing or stores the receipt with the Ready row. -/
theorem finishReserved_safe {reservation : WorkspaceReservation} {prepared : PreparedWorkspace}
    {plan : MaterializationPlan} {receipt : MaterializationReceipt}
    (h : Creating reservation.workspaceId w) :
    Safe (portEnvironment json installation) (fun _ _ => True)
      (ReservedOutcome json reservation.workspaceId)
      (finishReserved request reservation prepared plan receipt) w := by
  have herror : ∀ (e : UseCaseError) w', Creating reservation.workspaceId w' →
      ReservedOutcome json reservation.workspaceId (.error e) w' := fun e w' h => ⟨h.1, h⟩
  refine Safe.bind (x := port _ _) (creating_part h (Only.orFail (only_call rfl)))
    (fun _ w₁ h₁ => ?_) herror
  refine Safe.bind (x := port _ _) (creating_part h₁ (Only.orFail (only_call rfl)))
    (fun _ w₂ h₂ => ?_) herror
  refine Safe.bind (x := port _ _) (creating_part h₂ (Only.orFail (only_call rfl)))
    (fun _ w₃ h₃ => ?_) herror
  refine Safe.bind (x := port _ _) (creating_part h₃ (Only.orFail (only_call rfl)))
    (fun _ w₄ h₄ => ?_) herror
  refine ⟨trivial, fun completed w₅ h₅ => ?_⟩
  have hconsistent := step_consistent h₅ h₄.consistent
  rcases completed with e | record
  · -- A transaction that failed has changed nothing.
    have hdb : w₅.db = w₄.db := by
      obtain ⟨-, heffect⟩ := h₅
      exact StoreStep.failed_transaction heffect
    exact herror _ _ ⟨hconsistent, hdb ▸ h₄.row⟩
  · obtain ⟨faults, c, run, hdata⟩ := StoreStep.ran h₅.2
    obtain ⟨old, _, _, _, _, _, hrow, hinto, hreceipt⟩ :=
      Metadata.completeMaterialization_ok h₄.consistent.ids_nodup run
    refine ⟨hconsistent, _, receipt, request.now, ?_, rfl, hinto, ?_, rfl⟩
    · rw [hdata, hrow]
    · have hmem : Metadata.receiptRow json reservation.workspaceId receipt request.now ∈
          w₅.db.receipts := by
        rw [hdata, hreceipt]
        exact List.mem_append_right _ (List.mem_singleton_self _)
      exact Metadata.selectReceipt_of_mem hconsistent.receipt_ids_nodup hmem

/-- The reserved part either completes the row or leaves it in `creating`, since its one write is
its last call. -/
theorem createReserved_safe {dataRoot : AbsolutePath} {reservation : WorkspaceReservation}
    (h : Creating reservation.workspaceId w) :
    Safe (portEnvironment json installation) (fun _ _ => True)
      (ReservedOutcome json reservation.workspaceId)
      (createReserved request materializers dataRoot reservation) w := by
  have herror : ∀ (e : UseCaseError) w', Creating reservation.workspaceId w' →
      ReservedOutcome json reservation.workspaceId (.error e) w' := fun e w' h => ⟨h.1, h⟩
  refine Safe.bind (x := port _ _) (creating_part h (Only.orFail (only_call rfl)))
    (fun prepared w₁ h₁ => ?_) herror
  refine Safe.bind (x := unlessFail _ _) (creating_part h₁ only_unlessFail)
    (fun _ w₂ h₂ => ?_) herror
  refine Safe.bind (x := planPrepared _ _ _ _ _ _) 
    (creating_part h₂ (only_planPrepared.mono not_writesStore_of_observes))
    (fun plan w₃ h₃ => ?_) herror
  refine Safe.bind (x := materializePrepared _ _ _ _ _)
    (creating_part h₃ reading_materializePrepared) (fun made w₄ h₄ => ?_) herror
  exact finishReserved_safe h₄

/-! ### The recorded outcome

What the reserved part left is turned into what is promised: a failure is recorded by a
guarded update, which finds the row in the state it expects.  The rest is the composition
along `createImpl`, where the one reservation of a run is told apart from every other call.
-/

/-- The call that makes a reservation, which a creation makes once. -/
def PortCall.isReserve : PortCall → Bool
  | .reserveWorkspace _ => true
  | _ => false

/-- A call that writes nothing makes no reservation, which is a write. -/
theorem not_isReserve_of_not_writesStore (c : PortCall) (h : c.writesStore = false) :
    c.isReserve = false := by
  cases c <;> first | rfl | cases h

/-- The reserved part makes no other reservation: the one before it stays the only one. -/
theorem only_createReserved {dataRoot : AbsolutePath} {reservation : WorkspaceReservation} :
    Only (fun c => c.isReserve = false)
      (createReserved request materializers dataRoot reservation) := by
  refine Only.bind (Only.orFail (only_call rfl)) fun prepared =>
    Only.bind only_unlessFail fun _ => ?_
  refine Only.bind ((only_planPrepared.mono not_writesStore_of_observes).mono
    not_isReserve_of_not_writesStore) fun plan => ?_
  refine Only.bind (reading_materializePrepared.mono not_isReserve_of_not_writesStore)
    fun made => ?_
  refine Only.bind (Only.orFail (only_call rfl)) fun _ =>
    Only.bind (Only.orFail (only_call rfl)) fun _ => ?_
  refine Only.bind (Only.orFail (only_call rfl)) fun _ =>
    Only.bind (Only.orFail (only_call rfl)) fun _ => ?_
  exact Only.bind (Only.orFail (only_call rfl)) fun _ => Program.only_pure

/-- Recording the outcome makes no reservation, whether it succeeds or not. -/
theorem only_recordOutcome {result : Except UseCaseError CreateOutcome} :
    Only (fun c => c.isReserve = false) (recordOutcome request id result) := by
  cases result with
  | ok outcome => exact Program.only_pure
  | error error =>
    exact Only.bind (only_call rfl) fun
      | .ok _ => Program.only_throw
      | .error _ => Program.only_throw

/-- **Every failure is recorded.**  `recordOutcome` turns what `create_reserved` left into what a
creation promises.  A success is already settled.  Behind a failure the row is recorded in `error`,
and where the recording itself fails its call stands in the history and the row is not Ready. -/
theorem recordOutcome_safe {result : Except UseCaseError CreateOutcome}
    (h : ReservedOutcome json id result w) :
    Safe (portEnvironment json installation) (fun _ _ => True) (Settled json id)
      (recordOutcome request id result) w := by
  obtain ⟨hconsistent, h⟩ := h
  cases result with
  | ok outcome => exact h
  | error error =>
    obtain ⟨row, hrow, hcreating⟩ := h.row
    refine ⟨trivial, fun recorded w₁ h₁ => ?_⟩
    rcases recorded with e | record
    · -- The recording failed: the row is where it was, or already in `error`.
      have hkept : ∃ row', w₁.db.selectWorkspace id.toText = some row' ∧ row'.state ≠ "ready" := by
        have hleaves :=
          @Metadata.recordFailure_not_ready id .creating error.diagnostic.code request.now
        have hready : row.state ≠ "ready" := by rw [hcreating]; decide
        rcases StoreStep.failed h₁.2 with ⟨c, faults, run, hdata⟩ | hdata
        · rw [hdata]
          exact hleaves.error run hconsistent.ids_nodup row hrow hready
        · exact ⟨row, hdata ▸ hrow, hready⟩
      obtain ⟨row', hrow', hready⟩ := hkept
      refine ⟨row', hrow', hready, .inr ⟨.creating, error.diagnostic.code, request.now, e, ?_⟩⟩
      rw [step_history h₁]
      exact List.mem_append_right _ (List.mem_singleton_self _)
    · obtain ⟨faults, c, run, hdata⟩ := StoreStep.ran h₁.2
      obtain ⟨row', hrow', hstate, hcode⟩ :=
        Metadata.recordFailure_ok hconsistent.ids_nodup run
      refine ⟨row', hdata ▸ hrow', by rw [hstate]; decide, .inl ⟨hstate, hcode⟩⟩

/-- The run after a reservation that returned is settled: Ready with its receipt, or an error that
is recorded.  The reserved part is attempted, so its failure reaches the recording, and neither
makes a second reservation. -/
theorem afterReservation_safe {dataRoot : AbsolutePath} {reservation : WorkspaceReservation}
    (h : Creating reservation.workspaceId w) :
    Safe (portEnvironment json installation) (fun _ _ => True)
      (fun outcome w' => Settled json reservation.workspaceId outcome w' ∧
        Calm PortCall.isReserve w w')
      (do
        let result ← ((createReserved request materializers dataRoot reservation).mapError
          fun error => error.withWorkspaceId reservation.workspaceId).attempt
        recordOutcome request reservation.workspaceId result) w := by
  refine Safe.and ?_ (calm_safe (fun _ _ _ => trivial)
    (Only.bind only_createReserved.mapError.attempt fun _ => only_recordOutcome))
  have hreserved : Safe (portEnvironment json installation) (fun _ _ => True)
      (ReservedOutcome json reservation.workspaceId)
      ((createReserved request materializers dataRoot reservation).mapError
        fun error => error.withWorkspaceId reservation.workspaceId) w := by
    refine Safe.mapError ((createReserved_safe h).mono fun outcome w' hw => ?_)
    cases outcome <;> exact hw
  refine Safe.bind hreserved.attempt (fun result w₁ h₁ => ?_) fun e w₁ h₁ => ?_
  · obtain ⟨_, ⟨⟩, h₁⟩ := h₁
    exact recordOutcome_safe h₁
  · obtain ⟨_, ⟨⟩, _⟩ := h₁

/-- What every reservation of the history is told by the outcome. -/
def ReservationsSettled (json : JsonLibrary) (outcome : Except UseCaseError CreateOutcome)
    (w : World) : Prop :=
  ∀ reservation record, ⟨.reserveWorkspace reservation, .ok record⟩ ∈ w.history →
    Settled json reservation.workspaceId outcome w

/-- A creation that makes its reservation settles it: the row is Ready at the end, or in `error`
where the failure could be recorded. -/
theorem reserveAndCreate_safe {identity : InstallationIdentity}
    {reservation : WorkspaceReservation} (hw : w.db.Consistent)
    (hfresh : ∀ reservation r, ⟨.reserveWorkspace reservation, r⟩ ∉ w.history) :
    Safe (portEnvironment json installation) (fun _ _ => True) (ReservationsSettled json)
      (reserveAndCreate request materializers identity reservation) w := by
  refine ⟨trivial, fun reserved w₁ h₁ => ?_⟩
  have honly : ∀ reservation' record,
      ⟨.reserveWorkspace reservation', .ok record⟩ ∈ w₁.history →
        (⟨.reserveWorkspace reservation', .ok record⟩ : Event) =
          ⟨.reserveWorkspace reservation, reserved⟩ := by
    intro reservation' record he
    rw [step_history h₁] at he
    rcases List.mem_append.mp he with he | he
    · exact absurd he (hfresh _ _)
    · exact List.mem_singleton.mp he
  rcases reserved with e | record
  · intro reservation' record' he
    cases honly _ _ he
  · have hcreating : Creating reservation.workspaceId w₁ := by
      obtain ⟨faults, c, run, hdata⟩ := StoreStep.ran h₁.2
      refine ⟨step_consistent h₁ hw, Metadata.reservationRow reservation, ?_, rfl⟩
      rw [hdata]
      exact Metadata.selectWorkspace_insertWorkspace (Metadata.reserveWorkspace_ok run)
    refine (afterReservation_safe hcreating).mono fun outcome w₂ h₂ reservation' record' he => ?_
    cases honly _ _ (h₂.2.mem_of_kind he rfl)
    exact h₂.1

/-- **Every creation settles its reservation**, from any consistent database.  Nothing writes to
the store before the reservation, so a run that ends earlier has no reservation to settle. -/
theorem createImpl_safe {db : Database} (hdb : db.Consistent) :
    Safe (portEnvironment json installation) (fun _ _ => True) (ReservationsSettled json)
      (createImpl request materializers) ⟨db, []⟩ := by
  have hnone : ∀ {w' : World} {outcome : Except UseCaseError CreateOutcome},
      Calm PortCall.writesStore ⟨db, []⟩ w' → ReservationsSettled json outcome w' := by
    intro w' outcome h reservation record he
    exact absurd (h.mem_of_kind he rfl) List.not_mem_nil
  refine Safe.bind (x := unlessFail _ _) (reading_part only_unlessFail)
    (fun _ w₁ h₁ => ?_) fun e w₁ h₁ => hnone h₁.1
  refine Safe.bind (x := readIdentity)
    (observing_part (only_readIdentity.mono observes_of_opensStore))
    (fun identity w₂ h₂ => ?_) fun e w₂ h₂ => hnone (h₁.1.trans h₂.1)
  have hcalm₂ := h₁.1.trans h₂.1
  refine Safe.bind (x := unlessFail _ _) (reading_part only_unlessFail)
    (fun _ w₃ h₃ => ?_) fun e w₃ h₃ => hnone (hcalm₂.trans h₃.1)
  have hcalm₃ := hcalm₂.trans h₃.1
  refine Safe.bind (x := openMetadata _ _)
    (observing_part (only_openMetadata.mono observes_of_opensStore))
    (fun _ w₄ h₄ => ?_) fun e w₄ h₄ => hnone (hcalm₃.trans h₄.1)
  have hcalm₄ := hcalm₃.trans h₄.1
  refine Safe.bind (x := port _ _) (reading_part (Only.orFail (only_call rfl)))
    (fun active w₅ h₅ => ?_) fun e w₅ h₅ => hnone (hcalm₄.trans h₅.1)
  have hcalm₅ := hcalm₄.trans h₅.1
  cases findByName request.name active with
  | some existing =>
    exact (observing_part only_createExisting).mono fun _ _ h₆ => hnone (hcalm₅.trans h₆.1)
  | none =>
    refine Safe.bind (x := observe _ _ _) (observing_part only_observe)
      (fun reservation w₆ h₆ => ?_) fun e w₆ h₆ => hnone (hcalm₅.trans h₆.1)
    have hcalm₆ := hcalm₅.trans h₆.1
    refine reserveAndCreate_safe (hcalm₆.consistent hdb) fun reservation' r he => ?_
    exact absurd (hcalm₆.mem_of_kind he rfl) List.not_mem_nil

/-- **The outcome of a creation.**  In every run of `create` on every reachable
database that gets as far as a reservation, whatever the other ports do: if it
returns, the row is Ready and its receipt is the one summarised in the outcome;
if it fails, the row is not Ready, and it is in `error` with the code of the
failure unless the call that records it failed. -/
theorem create_outcome (json : JsonLibrary) (installation : InstallationRecord)
    (request : CreateRequest) (materializers : Materializers)
    (calls : List (Metadata.Call × List Bool)) {outcome : Except UseCaseError CreateOutcome}
    {w : World}
    (run : Program.Returns (portEnvironment json installation) (createImpl request materializers)
      ⟨Metadata.runCalls json installation (.initialized installation) calls, []⟩ outcome w)
    {reservation : WorkspaceReservation} {record : WorkspaceRecord}
    (reserved : ⟨.reserveWorkspace reservation, .ok record⟩ ∈ w.history) :
    Settled json reservation.workspaceId outcome w :=
  (createImpl_safe (Metadata.consistent_runCalls json installation calls)).of_returns run
    reservation record reserved

/-! ### A small creation

A run of `create` that clones an empty directory, with every answer written out.  It is the
run behind several witnesses: the reservation, the receipt and the completed row come from
it. -/

/-- The creation that `sampleReservation` is made for, with a full copy allowed. -/
def sampleCreate : CreateRequest :=
  ⟨sampleReservation.sourcePath, sampleReservation.targetPath, sampleReservation.name, true,
    sampleReservation.createdAt⟩

/-- The root directory has an absolute path, in which the siblings of the sample lie. -/
theorem validatePath_root : validatePath [slash] = .ok () := by decide

/-- The root directory, with an identity of its own. -/
def sampleRoot : DirectoryIdentityEvidence := ⟨⟨[slash], validatePath_root⟩, ⟨1, 1⟩⟩

/-- A Btrfs directory below the root, which exists and supports clones. -/
def sampleDirectory (path : AbsolutePath) (inode : UInt64) : PathCapabilityReport where
  requestedPath := path
  resolution := .existingDirectory
  nearestExistingAncestor := path
  missingComponents := []
  ancestry := [sampleRoot, ⟨path, ⟨1, inode⟩⟩]
  filesystem := ⟨"btrfs", (0, 0), .known sampleReservation.targetVolumeId⟩
  mount := ⟨0, true, some 1⟩
  readability := .supported
  writability := .supported
  cowClone := .supported
  ancestry_ne_nil := by simp
  existing_iff := by simp
  last_ancestry := rfl

/-- A path that is missing in the root directory. -/
def sampleMissing (path : AbsolutePath) : PathCapabilityReport where
  requestedPath := path
  resolution := .missingTarget
  nearestExistingAncestor := sampleRoot.path
  missingComponents := [path.asBytes.drop 1]
  ancestry := [sampleRoot]
  filesystem := ⟨"btrfs", (0, 0), .known sampleReservation.targetVolumeId⟩
  mount := ⟨0, true, some 1⟩
  readability := .supported
  writability := .supported
  cowClone := .supported
  ancestry_ne_nil := by simp
  existing_iff := by simp
  last_ancestry := rfl

/-- The staging directory of the sample has an absolute path. -/
theorem validatePath_sampleStaging :
    validatePath (slash :: stagingName sampleReservation.workspaceId) = .ok () := by
  decide +kernel

/-- The trash directory of the sample has an absolute path. -/
theorem validatePath_sampleTrash :
    validatePath (slash :: trashName sampleReservation.workspaceId) = .ok () := by
  decide +kernel

/-- The prepared directories of the reservation, as a platform's store would hand them out. -/
def samplePrepared : PreparedWorkspace where
  targetRoot := sampleReservation.targetPath
  stagingRoot := ⟨_, validatePath_sampleStaging⟩
  trashRoot := ⟨_, validatePath_sampleTrash⟩
  targetIdentity := ⟨1, 4⟩

/-- A digest of zeros, since no sample compares digests. -/
def sampleDigest : Digest := ⟨List.replicate 32 0, rfl⟩

/-- A probe of the four paths, on a file system that can clone. -/
def sampleProbe (target staging trash : PathCapabilityReport) : MaterializationPathReport where
  source := sampleDirectory sampleReservation.sourcePath 2
  targetRoot := target
  staging := staging
  trash := trash
  cowClone := ⟨.btrfsReflink, .supported, []⟩
  fullCopy := ⟨.fullCopy, .supported, []⟩
  evidenceDigest := sampleDigest

/-- The probe before the reservation: the target and both operation directories are missing. -/
def samplePreliminary : MaterializationPathReport :=
  sampleProbe (sampleMissing samplePrepared.targetRoot) (sampleMissing samplePrepared.stagingRoot)
    (sampleMissing samplePrepared.trashRoot)

/-- The probe of the prepared directories: all three exist. -/
def sampleReport : MaterializationPathReport :=
  sampleProbe (sampleDirectory samplePrepared.targetRoot 4)
    (sampleDirectory samplePrepared.stagingRoot 5) (sampleDirectory samplePrepared.trashRoot 6)

/-- The plan of a clone under the prepared report. -/
def samplePlan : MaterializationPlan where
  requestedMode := .cowClone
  effectiveMode := .cowClone
  selectedAdapter := .btrfsReflink
  fallbackPolicy := .allowFullCopyOnCowUnsupported
  probeEvidenceDigest := sampleDigest
  pathEvidence := sampleReport.paths
  sourcePath := sampleReservation.sourcePath
  targetPath := sampleReservation.targetPath
  stagingPath := samplePrepared.stagingRoot
  trashPath := samplePrepared.trashRoot
  sourceVolumeId := sampleReservation.sourceVolumeId
  targetVolumeId := sampleReservation.targetVolumeId
  fallbackReason := none
  failedAttempts := []

/-- The receipt of a clone of an empty directory. -/
def sampleReceipt : MaterializationReceipt where
  probeEvidenceDigest := sampleDigest
  requestedMode := .cowClone
  effectiveMode := .cowClone
  actualMode := .cowClone
  actualAdapter := .btrfsReflink
  outcome := .succeeded
  cowEvidence := .notUsed
  sourceVolumeId := some sampleReservation.sourceVolumeId
  targetVolumeId := some sampleReservation.targetVolumeId
  created := []
  unconfirmedStaging := none
  rollback := .new .notNeeded [] []
  elapsedMillis := 0
  logicalBytes := some 0
  physicalBytes := some 0
  regularFileCount := some 0
  cloneCallsSucceeded := 0
  sourceManifestDigest := some sampleDigest
  targetManifestDigest := some sampleDigest
  failureKind := none
  fallbackReason := none
  failedAttempts := []

/-- A Btrfs clone and a full copy are available. -/
def sampleMaterializers : Materializers := ⟨.btrfsReflink, some .fullCopy⟩

/-- No workspace is listed before the first reservation of an installation. -/
theorem initialized_workspaces :
    StoreStep Metadata.workspaces (.initialized sampleInstallation) (.ok [])
      (.initialized sampleInstallation) := by
  have hlist : Metadata.workspaces ⟨.initialized sampleInstallation, []⟩ =
      .ok [] ⟨.initialized sampleInstallation, []⟩ := by
    change (Session.ofExcept ((List.mergeSort [] Metadata.WorkspaceRow.listedBefore).mapM
      Metadata.WorkspaceRow.intoRecord) : Metadata.Store _) _ = _
    rw [List.mergeSort_nil]
    rfl
  exact .returned hlist

/-- The sample reservation is accepted by a new installation. -/
theorem initialized_reserve :
    StoreStep (Metadata.reserveWorkspace sampleInstallation sampleReservation)
      (.initialized sampleInstallation) (.ok sampleRecord) sampleDatabase :=
  @StoreStep.returned _ _ _ [] _ ⟨sampleDatabase, []⟩ rfl

/-- The database once the sample reservation is completed: its row is Ready, and the receipt is
stored as the library prints it. -/
def sampleReadyDatabase (json : JsonLibrary) : Database :=
  { sampleDatabase with
    workspaces := [{ Metadata.reservationRow sampleReservation with state := "ready" }]
    receipts := [Metadata.receiptRow json sampleReservation.workspaceId sampleReceipt
      sampleCreate.now] }

/-- The completion of the sample reservation is accepted; its text is only asked whether it is
valid. -/
theorem sampleCreate_completes {json : JsonLibrary}
    (hvalid : json.jsonValid (json.toText (Metadata.finalReceiptJson sampleReceipt)) = true) :
    StoreStep (Metadata.completeMaterialization json sampleReservation.workspaceId samplePlan
      sampleReceipt sampleCreate.now) sampleDatabase (.ok sampleReady)
      (sampleReadyDatabase json) := by
  have hcomplete : ∀ valid : Bool, valid = true →
      StoreStep (Metadata.completeMaterialization ⟨json.toText, json.fromText, fun _ => valid⟩
        sampleReservation.workspaceId samplePlan sampleReceipt sampleCreate.now) sampleDatabase
        (.ok sampleReady) (sampleReadyDatabase json) := by
    rintro _ rfl
    exact @StoreStep.returned _ _ sampleDatabase [] _ ⟨sampleReadyDatabase json, []⟩ rfl
  exact hcomplete _ hvalid

/-- A run that clones an empty directory, with a library whose print of the receipt is valid.
It commits the sample receipt and no other. -/
theorem sampleCreate_run {json : JsonLibrary}
    (hvalid : json.jsonValid (json.toText (Metadata.finalReceiptJson sampleReceipt)) = true) :
    ∃ w, Program.Returns (portEnvironment json sampleInstallation)
        (createImpl sampleCreate sampleMaterializers) ⟨.initialized sampleInstallation, []⟩
        (.ok ⟨sampleReady, summaryOf sampleReceipt, true⟩) w ∧
      ⟨.reserveWorkspace sampleReservation, .ok sampleRecord⟩ ∈ w.history ∧
      ∀ id plan receipt now r, ⟨.completeMaterialization id plan receipt now, r⟩ ∈ w.history →
        plan = samplePlan ∧ receipt = sampleReceipt := by
  have hcomplete := sampleCreate_completes hvalid
  refine returns_after (.ok (some sampleInstallation.identity)) _ rfl ?_
  refine returns_after (.ok ()) _ rfl ?_
  refine returns_after (.ok ()) _ rfl ?_
  refine returns_after (.ok ()) _ rfl ?_
  refine returns_after (.ok ()) _ rfl ?_
  refine returns_after (.ok (some ⟨sampleInstallation.identity, .ready⟩)) _ rfl ?_
  refine returns_after (.ok ()) _ rfl ?_
  refine returns_after (.ok []) _ initialized_workspaces ?_
  refine returns_after (.ok (sampleDirectory sampleReservation.sourcePath 2)) _ rfl ?_
  refine returns_after (.ok (sampleDirectory sampleInstallation.identity.dataRoot 3)) _ rfl ?_
  refine returns_after sampleReservation.workspaceId _ rfl ?_
  refine returns_after (.ok samplePreliminary) _ rfl ?_
  refine returns_after (.ok sampleRecord) _ initialized_reserve ?_
  refine returns_after (.ok samplePrepared) _ rfl ?_
  refine returns_after (.ok sampleReport) _ rfl ?_
  refine returns_after (.ok ()) _ rfl ?_
  refine returns_after (.ok (sampleDirectory sampleInstallation.identity.dataRoot 3)) _ rfl ?_
  refine returns_after (.ok sampleReceipt) _ rfl ?_
  refine returns_after (.ok ()) _ rfl ?_
  refine returns_after (.ok ()) _ rfl ?_
  refine returns_after (.ok ()) _ rfl ?_
  refine returns_after (.ok ()) _ rfl ?_
  refine returns_after (.ok sampleReady) _ hcomplete ?_
  refine ⟨_, .ret, ?_, fun id plan receipt now r hmem => ?_⟩
  · iterate 10 apply List.mem_append_left
    exact List.mem_append_right _ (List.mem_singleton_self _)
  · rcases List.mem_append.mp hmem with hmem | hmem
    · simp at hmem
    · cases List.mem_singleton.mp hmem
      exact ⟨rfl, rfl⟩

/-- A run that clones an empty directory, and returns with the record that is Ready. -/
theorem sampleCreate_returns : ∃ w,
    Program.Returns (portEnvironment sampleLibrary sampleInstallation)
        (createImpl sampleCreate sampleMaterializers) ⟨.initialized sampleInstallation, []⟩
        (.ok ⟨sampleReady, summaryOf sampleReceipt, true⟩) w ∧
      ⟨.reserveWorkspace sampleReservation, .ok sampleRecord⟩ ∈ w.history := by
  have hvalid : ∀ text, sampleLibrary.jsonValid text = true := fun _ => rfl
  obtain ⟨w, run, reserved, -⟩ := sampleCreate_run (hvalid _)
  exact ⟨w, run, reserved⟩

/-- The outcome of a creation that clones an empty directory, in a run that gets as far as its
reservation and returns. -/
theorem create_outcome_cloned : ∃ w,
    (Program.Returns (portEnvironment sampleLibrary sampleInstallation)
        (createImpl sampleCreate sampleMaterializers) ⟨.initialized sampleInstallation, []⟩
        (.ok ⟨sampleReady, summaryOf sampleReceipt, true⟩) w ∧
      ⟨.reserveWorkspace sampleReservation, .ok sampleRecord⟩ ∈ w.history) ∧
    Settled sampleLibrary sampleReservation.workspaceId
      (.ok ⟨sampleReady, summaryOf sampleReceipt, true⟩) w := by
  obtain ⟨w, run, reserved⟩ := sampleCreate_returns
  exact ⟨w, ⟨run, reserved⟩, create_outcome sampleLibrary sampleInstallation sampleCreate
    sampleMaterializers [] run reserved⟩

end Application
end ThinWorkspace
