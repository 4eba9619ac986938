/-
# Timestamps over the life of a row

Source: `crates/thinws-metadata-sqlite/src/lib.rs` and the triggers of
`schema_v2.sql`.  The clock is an input: every call brings its own time.  The
trigger `workspaces_timestamp_monotonic` refuses an update that would set
`updated_at` back, so `updateWorkspace_ages` needs no hypothesis.  A deletion writes
to another table, whose only constraint on the time is that it is not negative:
`complete_deletion` stores a tombstone that is older than the row it replaces when
the clock has stepped back since the row was last written.

`Call.BackDated` is that deletion.  `Call.ages_iff` says that it is the one call
that lets time run backwards, and `timestamps_iff` says it of every run.
-/

import ThinWorkspace.Metadata.Transitions

namespace ThinWorkspace
namespace Metadata

open ThinWorkspace.Core Lib Ports

/-- Time does not run backwards between two databases: a row that is still there was
not written earlier than before, and a row that is gone has a tombstone, none older
than the row. -/
structure Database.Ages (db db' : Database) : Prop where
  updated : ∀ row ∈ db.workspaces, ∀ row' ∈ db'.workspaces,
    row'.workspaceId = row.workspaceId → row.updatedAt ≤ row'.updatedAt
  replaced : ∀ row ∈ db.workspaces, (∀ row' ∈ db'.workspaces, row'.workspaceId ≠ row.workspaceId) →
    ∃ t ∈ db'.tombstones, t.workspaceId = row.workspaceId
  deleted : ∀ row ∈ db.workspaces, ∀ t ∈ db'.tombstones, t.workspaceId = row.workspaceId →
    row.createdAt ≤ t.deletedAt ∧ row.updatedAt ≤ t.deletedAt

/-- A deletion whose time lies before the last time of the row it deletes, and which
no fault stops. -/
def Call.BackDated (call : Call) (faults : List Bool) (db : Database) : Prop :=
  match call with
  | .completeDeletion id instanceId now =>
    (∃ row ∈ db.workspaces, row.workspaceId = id.toText ∧ row.instanceId = instanceId.toText ∧
      row.state = "deleting" ∧ now.get < row.updatedAt) ∧ true ∉ faults.take 5
  | _ => False

variable {db db' : Database}

/-! ### Statements

An insertion brings a new identity and an update passes the trigger on time, so neither sets
a row back, whatever time the call was given. -/

/-- A database in which every row kept its identity, and no row went. -/
theorem Database.Ages.of_kept (hdb : db.Consistent) (hkept : ∀ row ∈ db.workspaces,
      ∃ row' ∈ db'.workspaces, row'.workspaceId = row.workspaceId)
    (hupdated : ∀ row ∈ db.workspaces, ∀ row' ∈ db'.workspaces,
      row'.workspaceId = row.workspaceId → row.updatedAt ≤ row'.updatedAt)
    (htombstones : db'.tombstones = db.tombstones) : db.Ages db' where
  updated := hupdated
  replaced row hrow hgone := by
    obtain ⟨row', hrow', hid⟩ := hkept row hrow
    exact absurd hid (hgone row' hrow')
  deleted row hrow t ht hid := by
    rw [htombstones] at ht
    exact absurd hid.symm (hdb.tombstones_inactive t ht row hrow)

/-- A row is as old as itself. -/
theorem updatedAt_le_of_id (hdb : db.Consistent) {row row' : WorkspaceRow}
    (hrow : row ∈ db.workspaces) (hrow' : row' ∈ db.workspaces)
    (hid : row'.workspaceId = row.workspaceId) : row.updatedAt ≤ row'.updatedAt := by
  have hsame : row' = row := Sql.eq_of_key_eq hdb.ids_nodup hrow' hrow hid
  exact hsame ▸ Int.le_refl _

/-- Where nothing happens nothing is set back. -/
theorem Database.Ages.refl (hdb : db.Consistent) : db.Ages db :=
  .of_kept hdb (fun row hrow => ⟨row, hrow, rfl⟩)
    (fun _ hrow _ hrow' hid => updatedAt_le_of_id hdb hrow hrow' hid) rfl

/-- An insertion sets no row back: the new one has an identifier of its own. -/
theorem insertWorkspace_ages (hdb : db.Consistent) {new : WorkspaceRow}
    (h : db.insertWorkspace new = .ok ((), db')) : db.Ages db' := by
  obtain ⟨rfl, hfresh, _⟩ := insertWorkspace_ok h
  refine .of_kept hdb (fun row hrow => ⟨row, List.mem_append_left _ hrow, rfl⟩)
    (fun row hrow row' hrow' hid => ?_) rfl
  rcases List.mem_append.mp hrow' with hold | hnew
  · exact updatedAt_le_of_id hdb hrow hold hid
  · rw [List.mem_singleton.mp hnew] at hid
    exact absurd hid.symm (hfresh row hrow).1

/-- **The trigger keeps time**: no update sets a row back. -/
theorem updateWorkspace_ages (hdb : db.Consistent) {receipts : List ReceiptRow}
    {id expected : String} {assign : WorkspaceRow → WorkspaceRow} {n : ℕ}
    (h : ({ db with receipts } : Database).updateWorkspace id expected assign = .ok (n, db')) :
    db.Ages db' := by
  obtain ⟨rows, hrows, rfl⟩ := updateWorkspace_ok h
  have hids : rows.map (·.workspaceId) = db.workspaces.map (·.workspaceId) :=
    Sql.map_updateWhere hrows fun r hr => (checkUpdate_spec hr).1.symm
  refine .of_kept hdb (fun row hrow => ?_) (fun row hrow row' hrow' hid => ?_) rfl
  · obtain ⟨row', hrow', hid⟩ := List.mem_map.mp (hids ▸ List.mem_map_of_mem hrow)
    exact ⟨row', hrow', hid⟩
  · rcases (Sql.mem_updateWhere hrows).mp hrow' with ⟨hold, _⟩ | ⟨old, hold, _, hcheck, rfl⟩
    · exact updatedAt_le_of_id hdb hrow hold hid
    · obtain ⟨hsame, _, _, _, _, htime, _⟩ := checkUpdate_spec hcheck
      rwa [Sql.eq_of_key_eq hdb.ids_nodup hrow hold (hid.symm.trans hsame.symm)]

/-! ### Deletions

A tombstone has the time of the call, and nothing in the schema compares it with the row it
replaces.  A deletion therefore keeps time exactly when the time it was given does;
`completeDeletion_runs` shows that a back-dated one goes through. -/

section Deletion

variable {id : WorkspaceId} {instanceId : InstanceId} {now : UnixMillis}

/-- The tombstone `complete_deletion` inserts, with the time of the call. -/
def tombstoneRow (id : WorkspaceId) (instanceId : InstanceId) (now : UnixMillis) :
    TombstoneRow where
  workspaceId := id.toText
  instanceId := instanceId.toText
  deletedAt := now.get

/-- **`complete_deletion` returned**: the row was `deleting` and belonged to the
instance, it is gone, and its tombstone is stored. -/
theorem completeDeletion_ok {c c' : Connection Database} {tombstone : DeletionTombstone}
    (h : completeDeletion id instanceId now c = .ok tombstone c') :
    (∃ row, c.data.selectWorkspace id.toText = some row ∧ row.instanceId = instanceId.toText ∧
      row.state = "deleting") ∧
      c'.data.tombstones = c.data.tombstones ++ [tombstoneRow id instanceId now] ∧
      ∀ row, row ∈ c'.data.workspaces ↔
        row ∈ c.data.workspaces ∧ Database.isDeleting id.toText row = false := by
  obtain ⟨c₁, c₂, h₁, h, h₂⟩ := Session.transaction_ok h
  obtain ⟨c₃, h₃, h⟩ := Session.query_bind_ok h
  cases hfound : c₁.data.selectWorkspace id.toText with
  | none => rw [hfound] at h; cases h
  | some row =>
    rw [hfound] at h
    obtain ⟨hinstance, h⟩ := Session.require_bind_ok h
    obtain ⟨hstate, h⟩ := Session.require_bind_ok h
    obtain ⟨_, c₄, hinsert, h⟩ := Session.exec_bind_ok h
    obtain ⟨deleted, c₅, hdeleted, h⟩ := Session.exec_bind_ok h
    obtain ⟨-, h⟩ := Session.require_bind_ok h
    obtain ⟨-, hc⟩ := Session.pure_ok h
    obtain ⟨hmid, -⟩ := insertTombstone_ok hinsert
    obtain ⟨-, htombstones, hrows, -⟩ := deleteWorkspace_ok hdeleted
    rw [hmid, h₃, h₁] at htombstones hrows
    rw [h₁] at hfound
    rw [h₂, hc]
    exact ⟨⟨row, hfound, hinstance, hstate⟩, htombstones, hrows⟩

/-- A deletion that is not back-dated leaves a tombstone no older than the row. -/
theorem completeDeletion_ages (hdb : db.Consistent) {faults : List Bool}
    {c' : Connection Database} {tombstone : DeletionTombstone}
    (h : completeDeletion id instanceId now ⟨db, faults⟩ = .ok tombstone c')
    (htime : ∀ row ∈ db.workspaces, row.workspaceId = id.toText →
      row.instanceId = instanceId.toText → row.state = "deleting" → row.updatedAt ≤ now.get) :
    db.Ages c'.data := by
  obtain ⟨⟨gone, hselect, hinstance, hstate⟩, htombstones, hrows⟩ := completeDeletion_ok h
  obtain ⟨hgone, hgoneId⟩ := selectWorkspace_mem hselect
  have hlast := htime gone hgone hgoneId hinstance hstate
  have hcreated := (WorkspaceRow.check_spec (hdb.checked gone hgone)).2
  refine ⟨fun row hrow row' hrow' hid => ?_, fun row hrow hleft => ?_, fun row hrow t ht hid => ?_⟩
  · exact updatedAt_le_of_id hdb hrow ((hrows row').mp hrow').1 hid
  · -- A row that is no longer there was the one selected.
    have hdeleting : Database.isDeleting id.toText row = true := by
      by_contra hkept
      exact hleft row ((hrows row).mpr ⟨hrow, by simpa using hkept⟩) rfl
    simp only [Database.isDeleting, Bool.and_eq_true, beq_iff_eq] at hdeleting
    refine ⟨tombstoneRow id instanceId now, ?_, hdeleting.1.symm⟩
    rw [htombstones]
    exact List.mem_append_right _ (List.mem_singleton_self _)
  · rw [htombstones] at ht
    rcases List.mem_append.mp ht with ht | ht
    · exact absurd hid.symm (hdb.tombstones_inactive t ht row hrow)
    · rw [List.mem_singleton.mp ht] at hid ⊢
      rw [Sql.eq_of_key_eq hdb.ids_nodup hrow hgone (hid.symm.trans hgoneId.symm)]
      exact ⟨Int.le_trans hcreated hlast, hlast⟩

/-- What a deletion of a row in `deleting` finds: the tombstone goes in, and then the row goes,
alone.  The identifier is no old one, since it is active, and the row that is being deleted is the
one the trigger asks for. -/
theorem insertTombstone_deleting (hdb : db.Consistent) {row : WorkspaceRow}
    (hrow : row ∈ db.workspaces) (hid : row.workspaceId = id.toText)
    (hinstance : row.instanceId = instanceId.toText) (hstate : row.state = "deleting")
    (hinstalled : db.installation.instanceId = row.instanceId) :
    db.insertTombstone (tombstoneRow id instanceId now) =
      .ok ((), { db with tombstones := db.tombstones ++ [tombstoneRow id instanceId now] }) := by
  have hfresh : db.tombstones.any (fun t => t.workspaceId == id.toText) = false := by
    refine List.any_eq_false.mpr fun t ht he => ?_
    exact hdb.tombstones_inactive t ht row hrow (hid.trans (beq_iff_eq.mp he).symm)
  have hactive : (db.workspaces.any fun w => w.workspaceId == id.toText &&
      w.instanceId == instanceId.toText && w.state == "deleting") = true :=
    List.any_eq_true.mpr ⟨row, hrow, by simp [hid, hinstance, hstate]⟩
  have hguard : db.tombstonesInsertGuard (tombstoneRow id instanceId now) = true := by
    simp only [Database.tombstonesInsertGuard, tombstoneRow, hfresh, hactive, Bool.not_false,
      Bool.and_true]
  have hkey : (db.installation.instanceId == (tombstoneRow id instanceId now).instanceId) = true :=
    beq_iff_eq.mpr (hinstalled.trans hinstance)
  have htime : decide (0 ≤ (tombstoneRow id instanceId now).deletedAt) = true :=
    decide_eq_true now.nonneg
  unfold Database.insertTombstone
  rw [hguard, htime, hkey]
  rfl

/-- A row that is replaced by its tombstone was being deleted.  The row is the only one that the
statement selects, and its tombstone is there as the trigger demands. -/
theorem deleteWorkspace_deleting (hdb : db.Consistent) {row : WorkspaceRow}
    (hrow : row ∈ db.workspaces) (hid : row.workspaceId = id.toText)
    (hstate : row.state = "deleting") {t : TombstoneRow} (ht : t ∈ db'.tombstones)
    (htid : t.workspaceId = row.workspaceId) (htinstance : t.instanceId = row.instanceId)
    (hrows : db'.workspaces = db.workspaces) :
    ∃ left, db'.deleteWorkspace id.toText = .ok (1, left) := by
  have hdeleting : ∀ r ∈ db.workspaces, Database.isDeleting id.toText r = true ↔ r = row := by
    intro r hr
    simp only [Database.isDeleting, Bool.and_eq_true, beq_iff_eq]
    constructor
    · rintro ⟨hrid, -⟩
      exact Sql.eq_of_key_eq hdb.ids_nodup hr hrow (hrid.trans hid.symm)
    · rintro rfl
      exact ⟨hid, hstate⟩
  have hcount : db.workspaces.countP (Database.isDeleting id.toText) = 1 := by
    rw [← Sql.countP_key_eq_one hdb.ids_nodup hrow]
    refine List.countP_congr fun r hr => ?_
    rw [hdeleting r hr, beq_iff_eq]
    exact ⟨fun h => h ▸ rfl, fun h => Sql.eq_of_key_eq hdb.ids_nodup hr hrow h⟩
  have hallowed : (db.workspaces.all fun r => !Database.isDeleting id.toText r ||
      db'.workspacesDeleteRequiresTombstone r) = true := by
    refine List.all_eq_true.mpr fun r hr => ?_
    by_cases h : Database.isDeleting id.toText r = true
    · rw [(hdeleting r hr).mp h, Bool.or_eq_true]
      exact .inr (List.any_eq_true.mpr ⟨t, ht, by simp [htid, htinstance]⟩)
    · rw [Bool.eq_false_iff.mpr h]
      rfl
  have hcascade : (db'.receipts.all fun x =>
      !(db.workspaces.any fun w => Database.isDeleting id.toText w &&
          w.workspaceId == x.workspaceId) ||
        Database.receiptsNoDirectDelete
          (db.workspaces.filter fun r => !Database.isDeleting id.toText r) x) = true := by
    refine List.all_eq_true.mpr fun x _ => ?_
    rw [Bool.or_eq_true, Bool.not_eq_true', or_iff_not_imp_left, Bool.not_eq_false]
    intro hparent
    obtain ⟨w, hw, hgone⟩ := List.any_eq_true.mp hparent
    simp only [Bool.and_eq_true, beq_iff_eq] at hgone
    have hwrow := (hdeleting w hw).mp hgone.1
    -- What is left does not have the identity of the row that went.
    simp only [Database.receiptsNoDirectDelete, Bool.not_eq_true', List.any_eq_false,
      List.mem_filter, beq_iff_eq, and_imp]
    intro r hr hkept hrid
    have hsame :=
      Sql.eq_of_key_eq hdb.ids_nodup hr hrow (hrid.trans (hgone.2.symm.trans (hwrow ▸ rfl)))
    rw [(hdeleting r hr).mpr hsame] at hkept
    cases hkept
  unfold Database.deleteWorkspace Sql.deleteWhere
  rw [hrows, if_pos hallowed, hcount]
  simp only [bind, Except.bind]
  rw [if_pos hcascade]
  exact ⟨_, rfl⟩

/-- **A deletion goes through** when no fault meets its five statements.  The five statements are
run one after another, and each of them succeeds by one of the lemmas above. -/
theorem completeDeletion_runs (hdb : db.Consistent) {row : WorkspaceRow}
    (hrow : row ∈ db.workspaces) (hid : row.workspaceId = id.toText)
    (hinstance : row.instanceId = instanceId.toText) (hstate : row.state = "deleting")
    (hinstalled : db.installation.instanceId = row.instanceId) :
    ∃ left, Session.Runs 5 (completeDeletion id instanceId now) db ⟨id, instanceId, now⟩ left := by
  let mid : Database :=
    { db with tombstones := db.tombstones ++ [tombstoneRow id instanceId now] }
  have hinsert : db.insertTombstone (tombstoneRow id instanceId now) = .ok ((), mid) :=
    insertTombstone_deleting hdb hrow hid hinstance hstate hinstalled
  obtain ⟨left, hdelete⟩ : ∃ left, mid.deleteWorkspace id.toText = .ok (1, left) :=
    deleteWorkspace_deleting hdb hrow hid hstate
      (List.mem_append_right _ (List.mem_singleton_self _)) hid.symm hinstance.symm rfl
  have hselect : db.selectWorkspace id.toText = some row :=
    hid ▸ selectWorkspace_of_mem hdb.ids_nodup hrow
  have hinserted : Session.Runs 1 (Session.mapError (fun _ => storageError
      "write deletion tombstone") (Session.exec SqlError.storage fun db =>
        db.insertTombstone (tombstoneRow id instanceId now))) db () mid :=
    (Session.runs_exec hinsert).mapError
  have hdeleted : Session.Runs 1 (Session.mapError (fun _ => storageError
      "delete active Workspace row") (Session.exec SqlError.storage fun db =>
        db.deleteWorkspace id.toText)) mid 1 left :=
    (Session.runs_exec hdelete).mapError
  have hdeletes : row.state = WorkspaceState.deleting.asStr := hstate
  refine ⟨left, Session.runs_transaction (n := 3) (Session.runs_query.bind (m := 2) ?_)⟩
  rw [hselect]
  refine Session.Runs.bind (n := 0) (m := 2) (Session.runs_require hinstance) ?_
  refine Session.Runs.bind (n := 0) (m := 2) (Session.runs_require hdeletes) ?_
  exact hinserted.bind (m := 1) (hdeleted.bind (m := 0)
    (Session.Runs.bind (m := 0) (Session.runs_require rfl) Session.runs_pure))

end Deletion

/-! ### The installation of a row

A deletion asks for rows of one installation.  That every row belongs to the installation of
its database is an invariant, and it is needed to see that a back-dated deletion is not
refused for another reason. -/

/-- Every row belongs to the installation of its database. -/
def Database.Installed (db : Database) : Prop :=
  ∀ row ∈ db.workspaces, db.installation.instanceId = row.instanceId

/-- A row that is inserted belongs to the installation. -/
theorem insertWorkspace_instance {new : WorkspaceRow}
    (h : db.insertWorkspace new = .ok ((), db')) : db.installation.instanceId = new.instanceId := by
  unfold Database.insertWorkspace at h
  split at h
  · rename_i hguard
    simp only [Bool.and_eq_true, beq_iff_eq] at hguard
    exact hguard.2
  · cases h

/-- An update leaves rows of the installation. -/
theorem updateWorkspace_installed (hdb : db.Installed) {id expected : String}
    {assign : WorkspaceRow → WorkspaceRow} {n : ℕ}
    (h : db.updateWorkspace id expected assign = .ok (n, db')) : db'.Installed := by
  obtain ⟨rows, hrows, rfl⟩ := updateWorkspace_ok h
  intro row hrow
  rcases (Sql.mem_updateWhere hrows).mp hrow with ⟨hold, _⟩ | ⟨old, hold, _, hcheck, rfl⟩
  · exact hdb row hold
  · exact (hdb old hold).trans (sameIdentity_of_checkUpdate hcheck).instanceId

/-- Every change leaves rows of the installation.  The instance column is checked where a row is
inserted and cannot be updated. -/
theorem Change.installed (h : Change db db') (hdb : db.Installed) : db'.Installed := by
  cases h with
  | unchanged => exact hdb
  | reserved insert =>
    have hnew := insertWorkspace_instance insert
    obtain ⟨rfl, _⟩ := insertWorkspace_ok insert
    intro row hrow
    rcases List.mem_append.mp hrow with hrow | hrow
    · exact hdb row hrow
    · rwa [List.mem_singleton.mp hrow]
  | @completed _ receipt _ _ _ insert update =>
    obtain ⟨rfl, _⟩ := insertReceipt_ok insert
    have hmid : ({ db with receipts := db.receipts ++ [receipt] } : Database).Installed := hdb
    exact updateWorkspace_installed hmid update
  | left leaves update => exact updateWorkspace_installed hdb update
  | deleted insert delete =>
    obtain ⟨rfl, _⟩ := insertTombstone_ok insert
    obtain ⟨hinstallation, _, hrows, _⟩ := deleteWorkspace_ok delete
    intro row hrow
    rw [hinstallation]
    exact hdb row ((hrows row).mp hrow).1

/-! ### Calls and runs

One call, then all calls.  The theorem is about the steps of a run that starts with a new
installation; its second direction uses the run of a back-dated deletion above. -/

section Calls

variable {json : JsonLibrary} {installation : InstallationRecord} {faults : List Bool}

/-- A deletion lets time run backwards exactly when it is back-dated.  A deletion that goes through
writes the given moment into its tombstone, and one that does not writes nothing. -/
theorem completeDeletion_ages_iff (hdb : db.Consistent) (hinstalled : db.Installed)
    {id : WorkspaceId} {instanceId : InstanceId} {now : UnixMillis} :
    db.Ages (Session.dataAfter (completeDeletion id instanceId now) ⟨db, faults⟩) ↔
      ¬Call.BackDated (.completeDeletion id instanceId now) faults db := by
  constructor
  · rintro hages ⟨⟨row, hrow, hid, hinstance, hstate, hlate⟩, hfaults⟩
    obtain ⟨left, hruns⟩ := @completeDeletion_runs db id instanceId now hdb row hrow hid hinstance
      hstate (hinstalled row hrow)
    have hrun := (hruns faults).1 hfaults
    unfold Session.dataAfter at hages
    rw [hrun] at hages
    obtain ⟨_, htombstones, _⟩ := completeDeletion_ok hrun
    have hold := (hages.deleted row hrow (tombstoneRow id instanceId now) (by
      rw [htombstones]
      exact List.mem_append_right _ (List.mem_singleton_self _)) hid.symm).2
    exact absurd hlate (Int.not_lt.mpr hold)
  · intro hdated
    cases hrun : completeDeletion id instanceId now ⟨db, faults⟩ with
    | error e c =>
      have hdata : c.data = db := Session.transaction_error hrun
      unfold Session.dataAfter
      rw [hrun]
      show db.Ages c.data
      rw [hdata]
      exact .refl hdb
    | ok tombstone c =>
      unfold Session.dataAfter
      rw [hrun]
      refine completeDeletion_ages hdb hrun fun row hrow hid hinstance hstate => ?_
      refine Int.not_lt.mp fun hlate => hdated ⟨⟨row, hrow, hid, hinstance, hstate, hlate⟩, ?_⟩
      intro hfaults
      obtain ⟨left, hruns⟩ := @completeDeletion_runs db id instanceId now hdb row hrow hid hinstance
        hstate (hinstalled row hrow)
      obtain ⟨e, c', hfails⟩ := (hruns faults).2 hfaults
      rw [hfails] at hrun
      cases hrun

/-- **One call.**  It lets time run backwards exactly when it is a back-dated deletion.  There is
one case for each call: every update is checked against the moment of the row, and only the
tombstone of a deletion is not. -/
theorem Call.ages_iff (hdb : db.Consistent) (hinstalled : db.Installed) (call : Call) :
    db.Ages (call.run json installation faults db) ↔ ¬call.BackDated faults db := by
  let Ageing (db db' : Database) : Prop := db.Consistent → db.Ages db'
  have hrefl : ∀ db, Ageing db db := fun _ => .refl
  cases call with
  | reserveWorkspace reservation =>
    have hleaves : Session.Leaves Ageing (Metadata.reserveWorkspace installation reservation) :=
      reserveWorkspace_leaves hrefl fun _ _ hinsert hdb => insertWorkspace_ages hdb hinsert
    exact iff_of_true (hleaves ⟨db, faults⟩ hdb) not_false
  | completeMaterialization id plan receipt now =>
    have hleaves : Session.Leaves Ageing
        (Metadata.completeMaterialization json id plan receipt now) := by
      refine completeMaterialization_leaves hrefl fun db mid db' row _ hinsert hupdate hdb => ?_
      obtain ⟨rfl, _⟩ := insertReceipt_ok hinsert
      exact updateWorkspace_ages hdb hupdate
    exact iff_of_true (hleaves ⟨db, faults⟩ hdb) not_false
  | recordFailure id expected code now =>
    have hleaves : Session.Leaves Ageing (Metadata.recordFailure id expected code now) :=
      recordFailure_leaves hrefl fun _ _ _ hupdate hdb => updateWorkspace_ages hdb hupdate
    exact iff_of_true (hleaves ⟨db, faults⟩ hdb) not_false
  | beginRemoval id expected mode now =>
    have hleaves : Session.Leaves Ageing (Metadata.beginRemoval id expected mode now) :=
      beginRemoval_leaves hrefl fun _ _ _ hupdate hdb => updateWorkspace_ages hdb hupdate
    exact iff_of_true (hleaves ⟨db, faults⟩ hdb) not_false
  | completeDeletion id instanceId now => exact completeDeletion_ages_iff hdb hinstalled

end Calls

variable (json : JsonLibrary) (installation : InstallationRecord)

/-- After any calls all rows belong to the installation. -/
theorem installed_runCalls (calls : List (Call × List Bool)) :
    (runCalls json installation (.initialized installation) calls).Installed :=
  runCalls_preserves json installation (fun _ _ hdb h => h.installed hdb)
    (fun _ hrow => absurd hrow List.not_mem_nil) calls

/-- Every step of the run from a fresh database satisfies `P`, on the call of the step,
its faults, and the databases before and after it. -/
def EachStep (P : Call → List Bool → Database → Database → Prop)
    (calls : List (Call × List Bool)) : Prop :=
  ∀ earlier call later, calls = earlier ++ call :: later →
    P call.1 call.2 (runCalls json installation (.initialized installation) earlier)
      (runCalls json installation (.initialized installation) (earlier ++ [call]))

/-- **Time, exactly.**  In a run of the store with any clock values, time runs
backwards at no step if and only if no step is a back-dated deletion. -/
theorem timestamps_iff (calls : List (Call × List Bool)) :
    EachStep json installation (fun _ _ db db' => db.Ages db') calls ↔
      EachStep json installation (fun call faults db _ => ¬call.BackDated faults db) calls := by
  refine forall_congr' fun earlier => forall_congr' fun call => forall_congr' fun later =>
    imp_congr_right fun _ => ?_
  rw [runCalls_concat]
  exact call.1.ages_iff (consistent_runCalls json installation earlier)
    (installed_runCalls json installation earlier)

/-- The reservation at the epoch, and its forced removal a millisecond later. -/
def sampleRemoval : List (Call × List Bool) :=
  [(.reserveWorkspace sampleReservation, []),
    (.beginRemoval sampleReservation.workspaceId .creating .force sampleLater, [])]

/-- After the sample calls the row of the sample is being deleted.  The calls are run one after the
other, and the last of them moves the row to `deleting`. -/
theorem sampleRemoval_row :
    recordRow sampleDeleting ∈ (runCalls json sampleInstallation
      (.initialized sampleInstallation) sampleRemoval).workspaces := by
  have hremoved := runCalls_concat json sampleInstallation (.initialized sampleInstallation)
    [(.reserveWorkspace sampleReservation, [])]
    (.beginRemoval sampleReservation.workspaceId .creating .force sampleLater, [])
  rw [sampleDatabase_reachable] at hremoved
  have hdb : sampleDatabase.Consistent := sampleDatabase_reachable json ▸
    consistent_runCalls json sampleInstallation [(.reserveWorkspace sampleReservation, [])]
  have hrow : recordRow sampleRecord ∈ sampleDatabase.workspaces := List.mem_singleton_self _
  obtain ⟨_, _, _, _, hyields⟩ := @Request.accepted sampleDatabase sampleRecord sampleLater json
    (.beginRemoval .force) .deleting hdb hrow rfl trivial sampleStart_le_later
  rcases hyields [] with ⟨rest, hrun, _⟩ | ⟨_, _, _, _, hfault⟩
  · have hbegun : beginRemoval sampleReservation.workspaceId .creating .force sampleLater
        ⟨sampleDatabase, []⟩ = _ := hrun
    have hkept := Session.dataAfter_ok hbegun
    have hleft := hremoved.trans hkept
    unfold sampleRemoval
    rw [List.cons_append, List.nil_append] at hleft
    rw [hleft]
    exact after_mem_moved hrow deleting_iff sampleStart_le_later
  · cases hfault

/-- The clock steps back by a millisecond between the removal and the deletion, and
the tombstone is older than the row it replaces. -/
theorem completeDeletion_not_ages : ¬∀ (json : JsonLibrary) (installation : InstallationRecord)
    (calls : List (Call × List Bool)),
    EachStep json installation (fun _ _ db db' => db.Ages db') calls := by
  intro h
  let deletion : Call × List Bool := (.completeDeletion sampleReservation.workspaceId
    sampleReservation.instanceId sampleStart, [])
  have hstep := h sampleLibrary sampleInstallation (sampleRemoval ++ [deletion]) sampleRemoval
    deletion [] rfl
  rw [runCalls_concat] at hstep
  have hdated := (deletion.1.ages_iff
    (consistent_runCalls sampleLibrary sampleInstallation sampleRemoval)
    (installed_runCalls sampleLibrary sampleInstallation sampleRemoval)).mp hstep
  refine hdated ?_
  exact ⟨⟨recordRow sampleDeleting, sampleRemoval_row sampleLibrary, rfl, rfl, rfl, by decide⟩,
    List.not_mem_nil⟩

end Metadata
end ThinWorkspace
