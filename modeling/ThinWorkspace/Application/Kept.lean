/-
# What leaves a workspace as it is

A call of the store rewrites the row of one identifier (`PortCall.rewrites`), and every
other call keeps the rows and the receipts of all the others (`effect_keeps`).

A creation rewrites the row of its own reservation only, which is a new one, and a removal
the row its target chooses.  So a Ready workspace is the same, and its receipt says the same
(`Retained`), in every database that creations, and removals that do not select it, reach
one after another (`Follows.retained`).
-/

import ThinWorkspace.Application.Reported
import ThinWorkspace.Application.RemoveTarget

namespace ThinWorkspace
namespace Application

open ThinWorkspace.Core Lib Ports
open Metadata (Database recordRow)
open Program (Only Safe)

variable {json : JsonLibrary} {installation : InstallationRecord} {db db' : Database}
  {w w' : World} {c : PortCall}

/-! ### The rows of the others

A writing call of the store names the row it rewrites.  Every other row, with its receipt,
is kept, as is shown for each statement and then for any call. -/

/-- The row that a call of the store rewrites. -/
def PortCall.rewrites : PortCall → Option WorkspaceId
  | .completeMaterialization id _ _ _ | .recordFailure id _ _ _ | .beginRemoval id _ _ _
  | .completeDeletion id _ _ => some id
  | _ => none

/-- The row and the receipt of an identifier are what they were. -/
structure Keeps (id : String) (db db' : Database) : Prop where
  row : ∀ row ∈ db.workspaces, row.workspaceId = id → row ∈ db'.workspaces
  receipt : ∀ stored ∈ db.receipts, stored.workspaceId = id → stored ∈ db'.receipts

/-- Every row is kept where nothing happens. -/
theorem Keeps.refl (id : String) (db : Database) : Keeps id db db :=
  ⟨fun _ h _ => h, fun _ h _ => h⟩

/-- An insertion keeps the rows that are there, and adds one behind them. -/
theorem keeps_insertWorkspace {id : String} {new : Metadata.WorkspaceRow}
    (h : db.insertWorkspace new = .ok ((), db')) : Keeps id db db' := by
  obtain ⟨rfl, -⟩ := Metadata.insertWorkspace_ok h
  exact ⟨fun _ hrow _ => List.mem_append_left _ hrow, fun _ hstored _ => hstored⟩

/-- An update of another row keeps this one, since the update names its row. -/
theorem keeps_updateWorkspace {id other expected : String}
    {assign : Metadata.WorkspaceRow → Metadata.WorkspaceRow} {n : ℕ} (hne : other ≠ id)
    (h : db.updateWorkspace other expected assign = .ok (n, db')) : Keeps id db db' := by
  obtain ⟨rows, hrows, rfl⟩ := Metadata.updateWorkspace_ok h
  refine ⟨fun row hrow hid => ?_, fun _ hstored _ => hstored⟩
  refine (Sql.mem_updateWhere hrows).mpr (Or.inl ⟨hrow, ?_⟩)
  have hother : (row.workspaceId == other) = false := by
    rw [hid]
    exact beq_eq_false_iff_ne.mpr hne.symm
  rw [hother, Bool.false_and]

/-- The deletion of another row keeps this one and its receipt.  The deletion selects by the
identifier, so what goes is neither this row nor its receipt. -/
theorem keeps_delete {id : String} {tombstone : Metadata.TombstoneRow} {mid : Database}
    (hne : tombstone.workspaceId ≠ id) (insert : db.insertTombstone tombstone = .ok ((), mid))
    (delete : mid.deleteWorkspace tombstone.workspaceId = .ok (1, db')) : Keeps id db db' := by
  obtain ⟨rfl, -⟩ := Metadata.insertTombstone_ok insert
  obtain ⟨-, -, hrows, hreceipts, -⟩ := Metadata.deleteWorkspace_ok delete
  have hgone : ∀ row : Metadata.WorkspaceRow,
      Database.isDeleting tombstone.workspaceId row = true → row.workspaceId ≠ id := by
    intro row hrow he
    simp only [Database.isDeleting, Bool.and_eq_true, beq_iff_eq] at hrow
    exact hne (hrow.1.symm.trans he)
  constructor
  case row =>
    intro row hrow hid
    refine (hrows row).mpr ⟨hrow, ?_⟩
    by_contra hdeleting
    exact hgone row (by simpa using hdeleting) hid
  case receipt =>
    intro stored hstored hid
    refine (hreceipts stored).mpr ⟨hstored, fun row hrow hdeleting => ?_⟩
    rw [hid]
    exact hgone row hdeleting

/-- **One call.**  A call keeps every row but the one it rewrites.  A call that does not write
keeps everything, and each of the others is about one identifier. -/
theorem PortCall.effect_keeps {id : WorkspaceId} {r : c.Result} (hc : c.rewrites ≠ some id)
    (h : c.effect json installation db r db') : Keeps id.toText db db' := by
  have hother : ∀ other, c.rewrites = some other → other.toText ≠ id.toText := by
    intro other ho he
    rw [WorkspaceId.toText_injective he] at ho
    exact hc ho
  by_cases hwrites : c.writesStore = false
  · rw [effect_reading hwrites h]
    exact .refl _ _
  cases c
  case reserveWorkspace =>
    exact h.leaves (Keeps.refl _) (Metadata.reserveWorkspace_leaves (Keeps.refl _)
      fun _ _ insert => keeps_insertWorkspace insert)
  case completeMaterialization =>
    refine h.leaves (Keeps.refl _) (Metadata.completeMaterialization_leaves (Keeps.refl _)
      fun db mid db' row hrow insert update => ?_)
    obtain ⟨rfl, -⟩ := Metadata.insertReceipt_ok insert
    have hmid : Keeps id.toText { db with receipts := db.receipts ++ [row] } db' :=
      keeps_updateWorkspace (hrow ▸ hother _ rfl) update
    exact ⟨hmid.row, fun stored hstored => hmid.receipt stored (List.mem_append_left _ hstored)⟩
  case recordFailure =>
    exact h.leaves (Keeps.refl _) (Metadata.recordFailure_leaves (Keeps.refl _)
      fun _ _ _ update => keeps_updateWorkspace (hother _ rfl) update)
  case beginRemoval =>
    exact h.leaves (Keeps.refl _) (Metadata.beginRemoval_leaves (Keeps.refl _)
      fun _ _ _ update => keeps_updateWorkspace (hother _ rfl) update)
  case completeDeletion =>
    exact h.leaves (Keeps.refl _) (Metadata.completeDeletion_leaves (Keeps.refl _)
      fun _ _ _ tombstone ht insert delete => keeps_delete (ht ▸ hother _ rfl) insert delete)
  all_goals exact absurd rfl hwrites

/-! ### A Ready workspace

`Retained` is what a later creation with the same name finds: the record, Ready and active,
and the receipt with its summary. -/

/-- The record is active and Ready, and its stored receipt says the summary. -/
structure Retained (json : JsonLibrary) (record : WorkspaceRecord)
    (summary : FinalMaterializationSummary) (db : Database) : Prop where
  consistent : db.Consistent
  encoded : db.Encoded
  active : Active db record
  ready : record.state = .ready
  told : ∃ stored ∈ db.receipts, stored.workspaceId = record.reservation.workspaceId.toText ∧
    stored.Tells json (recordRow record).targetVolumeId summary

variable {record : WorkspaceRecord} {summary : FinalMaterializationSummary}

/-- **One step** about another workspace keeps the record and the receipt of this one, whatever the
call is and does. -/
theorem Retained.step {r : c.Result} (h : Retained json record summary w.db)
    (hc : c.rewrites ≠ some record.reservation.workspaceId)
    (hstep : (portEnvironment json installation).step w c r w') :
    Retained json record summary w'.db := by
  have hchange := PortCall.effect_change hstep.2
  have hkeeps := PortCall.effect_keeps hc hstep.2
  obtain ⟨stored, hstored, hid, htells⟩ := h.told
  constructor
  case consistent => exact hchange.consistent h.consistent
  case encoded => exact hchange.encoded h.encoded
  case active => exact hkeeps.row _ h.active rfl
  case ready => exact h.ready
  case told => exact ⟨stored, hkeeps.receipt stored hstored hid, hid, htells⟩

/-! ### Creations

A creation writes to the row of its own reservation only, and its reservation has an
identifier that was never in use.  So it rewrites no row that was there when it began. -/

section Creations

variable {request : CreateRequest} {materializers : Materializers}
  {reservation : WorkspaceReservation} {id : WorkspaceId}

/-- A call that writes nothing rewrites no row. -/
theorem not_rewrites_of_not_writesStore (c : PortCall) (h : c.writesStore = false) :
    c.rewrites = none := by
  cases c <;> first | rfl | cases h

/-- The calls that rewrite no row but one. -/
def PortCall.SparesOthers (id : WorkspaceId) (c : PortCall) : Prop :=
  ∀ other, c.rewrites = some other → other = id

/-- A call that writes nothing spares the others, and the one it is about as well. -/
theorem sparesOthers_of_not_writesStore (c : PortCall) (h : c.writesStore = false) :
    c.SparesOthers id := by
  intro other ho
  rw [not_rewrites_of_not_writesStore c h] at ho
  cases ho

/-- A call that rewrites the one row spares the others. -/
theorem sparesOthers_self {c : PortCall} (h : c.rewrites = some id) : c.SparesOthers id :=
  fun _ ho => Option.some.inj (ho.symm.trans h)

/-- The end of a creation spares the others: the completion is of its own row. -/
theorem spares_finishReserved {prepared : PreparedWorkspace} {plan : MaterializationPlan}
    {receipt : MaterializationReceipt} :
    Only (PortCall.SparesOthers reservation.workspaceId)
      (finishReserved request reservation prepared plan receipt) := by
  have hreads : ∀ c : PortCall, c.writesStore = false →
      c.SparesOthers reservation.workspaceId := sparesOthers_of_not_writesStore
  refine Only.bind (Only.orFail (only_call (hreads _ rfl))) fun _ => ?_
  refine Only.bind (Only.orFail (only_call (hreads _ rfl))) fun _ => ?_
  refine Only.bind (Only.orFail (only_call (hreads _ rfl))) fun _ => ?_
  refine Only.bind (Only.orFail (only_call (hreads _ rfl))) fun _ => ?_
  exact Only.bind (Only.orFail (only_call (sparesOthers_self rfl))) fun _ => Program.only_pure

/-- A creation behind its reservation spares the others: all its writes are of its own row. -/
theorem spares_createReserved {dataRoot : AbsolutePath} :
    Only (PortCall.SparesOthers reservation.workspaceId)
      (createReserved request materializers dataRoot reservation) := by
  have hreads : ∀ c : PortCall, c.writesStore = false →
      c.SparesOthers reservation.workspaceId := sparesOthers_of_not_writesStore
  refine Only.bind (Only.orFail (only_call (hreads _ rfl))) fun prepared =>
    Only.bind only_unlessFail fun _ => ?_
  refine Only.bind ((only_planPrepared.mono not_writesStore_of_observes).mono hreads)
    fun plan => ?_
  exact Only.bind (reading_materializePrepared.mono hreads) fun _ => spares_finishReserved

/-- Recording an outcome spares the others: the failure is written to its own row. -/
theorem spares_recordOutcome {result : Except UseCaseError CreateOutcome} :
    Only (PortCall.SparesOthers id) (recordOutcome request id result) := by
  cases result with
  | ok outcome => exact Program.only_pure
  | error error =>
    exact Only.bind (only_call (sparesOthers_self rfl)) fun
      | .ok _ => Program.only_throw
      | .error _ => Program.only_throw

/-- A call that may be issued while the workspace is to stay as it is. -/
def sparing (id : WorkspaceId) : PortCall → World → Prop := fun c _ => c.rewrites ≠ some id

/-- A call that writes nothing may be issued while the workspace is to stay as it is. -/
theorem sparing_of_not_writesStore (c : PortCall) (w : World) (h : c.writesStore = false) :
    sparing id c w := by
  intro ho
  rw [not_rewrites_of_not_writesStore c h] at ho
  cases ho

/-- A part of a creation that only observes leaves the database. -/
theorem sparing_part {α : Type} {x : UseCase α} (hx : Only (fun c => c.observes = true) x) :
    Safe (portEnvironment json installation) (sparing id) (fun _ w' => w'.db = w.db) x w :=
  (reading_part_guarded sparing_of_not_writesStore (hx.mono not_writesStore_of_observes)).mono
    fun _ _ h => h.2

/-- **A creation rewrites no active row.**  Its reservation has a new identifier, and its other
writes are about that one.  Up to the reservation it only observes; the identifier of the
reservation is not an active one, since the insertion accepted it. -/
theorem createImpl_spares (hactive : Active db record) :
    Safe (portEnvironment json installation) (sparing record.reservation.workspaceId)
      (fun _ _ => True) (createImpl request materializers) ⟨db, []⟩ := by
  refine Safe.bind (x := unlessFail _ _) (sparing_part only_unlessFail)
    (fun _ w₁ h₁ => ?_) fun _ _ _ => trivial
  refine Safe.bind (x := readIdentity) (sparing_part (only_readIdentity.mono
    observes_of_opensStore)) (fun identity w₂ h₂ => ?_) fun _ _ _ => trivial
  refine Safe.bind (x := unlessFail _ _) (sparing_part only_unlessFail)
    (fun _ w₃ h₃ => ?_) fun _ _ _ => trivial
  refine Safe.bind (x := openMetadata _ _) (sparing_part (only_openMetadata.mono
    observes_of_opensStore)) (fun _ w₄ h₄ => ?_) fun _ _ _ => trivial
  refine Safe.bind (x := port _ _) (sparing_part (Only.orFail (only_call rfl)))
    (fun active w₅ h₅ => ?_) fun _ _ _ => trivial
  have hdb₅ : w₅.db = db := h₅.trans (h₄.trans (h₃.trans (h₂.trans h₁)))
  cases findByName request.name active with
  | some existing => exact (sparing_part only_createExisting).mono fun _ _ _ => trivial
  | none =>
    refine Safe.bind (x := observe _ _ _) (sparing_part only_observe)
      (fun reservation w₆ h₆ => ?_) fun _ _ _ => trivial
    refine ⟨nofun, fun reserved w₇ h₇ => ?_⟩
    rcases reserved with e | made
    · trivial
    · -- The insertion of the row was accepted, so its identifier is not the record's.
      obtain ⟨faults, c, run, -⟩ := StoreStep.ran h₇.2
      obtain ⟨-, hfresh, -⟩ := Metadata.insertWorkspace_ok (Metadata.reserveWorkspace_ok run)
      have hmem : recordRow record ∈ w₆.db.workspaces := by
        rw [h₆, hdb₅]
        exact hactive
      have hne : reservation.workspaceId ≠ record.reservation.workspaceId := by
        intro he
        exact (hfresh _ hmem).1 (congrArg WorkspaceId.toText he.symm)
      have hrest : Only (PortCall.SparesOthers reservation.workspaceId) (do
          let result ← ((createReserved request materializers identity.dataRoot
            reservation).mapError fun error =>
              error.withWorkspaceId reservation.workspaceId).attempt
          recordOutcome request reservation.workspaceId result) :=
        Only.bind spares_createReserved.mapError.attempt fun _ => spares_recordOutcome
      refine hrest.safe (R := fun _ _ => True) (fun _ => trivial) (fun _ _ _ _ _ => trivial)
        (fun c _ hc he => hne ?_) fun _ _ _ _ _ _ => trivial
      exact (hc _ he).symm

end Creations

/-! ### Removals

A removal rewrites the row it selected.  A record that is not selected is therefore none of
its business, whatever the removal does and however it ends. -/

/-- A call that rewrites a row is about its workspace. -/
theorem actsOn_of_rewrites {id : WorkspaceId} (h : c.rewrites = some id) : c.actsOn = some id := by
  cases c <;> first | exact h | cases h

/-- What a target stands for is an active record. -/
theorem StandsFor.active {target : RemoveTarget} (h : StandsFor db target (some record)) :
    Active db record := by
  cases target with
  | name name => exact ((h record).mp rfl).1
  | id id => exact ((h record).mp rfl).1
  | ambiguous name id => exact ((h.2 record).mp rfl).1

/-- **A removal rewrites no row that it does not select.** -/
theorem remove_spares (hdb : db.Consistent) (hencoded : db.Encoded) (hactive : Active db record)
    {request : RemoveRequest} (hother : ¬StandsFor db request.target (some record)) :
    Safe (portEnvironment json installation) (sparing record.reservation.workspaceId)
      (fun _ _ => True) (remove request) ⟨db, []⟩ := by
  refine ((remove_scope hdb hencoded request).weaken fun c _ hscope he => ?_).mono
    fun _ _ _ => trivial
  rcases hscope.chosen _ (actsOn_of_rewrites he) with ⟨selected, hselected, hid⟩ | ⟨-, -, hdeleted⟩
  · rw [hselected.active.eq_of_id hdb hactive hid] at hselected
    exact hother hselected
  · exact hactive.not_deleted hdb hdeleted

/-! ### Sequences

Creations and removals of others, one after the other and each stopped anywhere, with the
two step lemmas above. -/

/-- The databases that creations, and removals that do not select the record, reach one
after another, each stopped anywhere. -/
inductive Follows (json : JsonLibrary) (installation : InstallationRecord)
    (record : WorkspaceRecord) (start : Database) : Database → Prop
  | start : Follows json installation record start start
  | created {db : Database} {request : CreateRequest} {materializers : Materializers} {w : World}
      (before : Follows json installation record start db)
      (run : Program.Visits (portEnvironment json installation) (createImpl request materializers)
        ⟨db, []⟩ w) : Follows json installation record start w.db
  | removed {db : Database} {request : RemoveRequest} {w : World}
      (before : Follows json installation record start db)
      (other : ¬StandsFor db request.target (some record))
      (run : Program.Visits (portEnvironment json installation) (remove request) ⟨db, []⟩ w) :
      Follows json installation record start w.db

/-- **The run.**  The workspace stays as it is in every such sequence. -/
theorem Follows.retained {start : Database} (h : Follows json installation record start db)
    (hstart : Retained json record summary start) : Retained json record summary db := by
  have hstep : ∀ (w : World) (c : PortCall) r w', sparing record.reservation.workspaceId c w →
      Retained json record summary w.db → (portEnvironment json installation).step w c r w' →
        Retained json record summary w'.db := fun _ _ _ _ hc hw step => hw.step hc step
  induction h with
  | start => exact hstart
  | created _ run ih =>
    exact (createImpl_spares ih.active).of_visits
      (fun w => Retained json record summary w.db) ih hstep run
  | removed _ other run ih =>
    exact (remove_spares ih.consistent ih.encoded ih.active other).of_visits
      (fun w => Retained json record summary w.db) ih hstep run

end Application
end ThinWorkspace
