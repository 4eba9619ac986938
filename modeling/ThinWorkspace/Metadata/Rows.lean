/-
# Rows are encoded records

Every active row is `recordRow` of a record: a reservation writes one, and a
guarded update keeps its columns readable because the `CHECK`s hold of the row it
writes (`Change.encoded`).  So a reachable table decodes as a whole, row by row
(`Database.Encoded`), and reading it back is the inverse of writing it.
-/

import ThinWorkspace.Metadata.Invariant
import ThinWorkspace.Metadata.Outcome

namespace ThinWorkspace
namespace Metadata

open ThinWorkspace.Core Lib Ports

/-- The row of a record: the columns of its reservation, with those that an update sets. -/
def recordRow (record : WorkspaceRecord) : WorkspaceRow :=
  (reservationRow record.reservation).stamped record.state record.lastErrorCode record.updatedAt

/-! ### Round trip

A row of a record reads back as that record, and only rows of records do.  So the rows of a
table and a list of records are two views of the same data. -/

/-- A record passes the constructor that it was made by. -/
theorem WorkspaceRecord.new_fields (record : WorkspaceRecord) :
    WorkspaceRecord.new record.reservation record.state record.lastErrorCode record.updatedAt =
      .ok record := by
  unfold WorkspaceRecord.new
  rw [dif_neg (Int.not_lt.mpr record.created_le_updated), dif_pos record.error_iff]

/-- The permission to copy is read back from its column. -/
theorem decodeAllowFullCopy_bit (allow : Bool) :
    decodeAllowFullCopy (if allow then 1 else 0) = .ok allow := by
  cases allow <;> rfl

/-- An error code is read back from its text, if there is one. -/
theorem decodeErrorCode_map (code : Option ErrorCode) :
    decodeErrorCode (code.map ErrorCode.asStr) = .ok code := by
  cases code with
  | none => rfl
  | some code =>
    rw [Option.map_some, decodeErrorCode, ErrorCode.fromStr_asStr]
    rfl

/-- **A written row reads back** as the record it was written for. -/
theorem intoRecord_recordRow (record : WorkspaceRecord) :
    (recordRow record).intoRecord = .ok record := by
  unfold WorkspaceRow.intoRecord recordRow WorkspaceRow.stamped reservationRow
  dsimp only
  rw [decodeAllowFullCopy_bit, decodeErrorCode_map, WorkspaceId.fromText_toText,
    UuidV7.fromText_toText, WorkspaceName.tryFrom_asStr, AbsolutePath.tryFromBytes_asBytes,
    AbsolutePath.tryFromBytes_asBytes, VolumeId.fromText_toText, VolumeId.fromText_toText,
    UnixMillis.new_get, UnixMillis.new_get, WorkspaceState.fromStr_asStr]
  have hnew := WorkspaceRecord.new_fields record
  simp only [decoded, decodedOption, bind, Except.bind, hnew]

/-- The record of a readable row is the one it encodes. -/
theorem recordRow_unique {record read : WorkspaceRecord}
    (h : (recordRow record).intoRecord = .ok read) : read = record := by
  rw [intoRecord_recordRow] at h
  exact (Except.ok.inj h).symm

/-- The rows of records decode to the records. -/
theorem mapM_intoRecord (records : List WorkspaceRecord) :
    (records.map recordRow).mapM WorkspaceRow.intoRecord = .ok records := by
  induction records with
  | nil => rfl
  | cons record records ih =>
    rw [List.map_cons, List.mapM_cons, intoRecord_recordRow, ih]
    rfl

/-- Rows of records are the rows of a list of records. -/
theorem exists_records {rows : List WorkspaceRow}
    (h : ∀ row ∈ rows, ∃ record, row = recordRow record) :
    ∃ records : List WorkspaceRecord, rows = records.map recordRow := by
  induction rows with
  | nil => exact ⟨[], rfl⟩
  | cons row rows ih =>
    obtain ⟨record, rfl⟩ := h row List.mem_cons_self
    obtain ⟨records, rfl⟩ := ih fun row hrow => h row (List.mem_cons_of_mem _ hrow)
    exact ⟨record :: records, rfl⟩

/-! ### The invariant

The update of a row stamps three columns and the `CHECK`s look at the result, so a stamped
row is again the row of a record.  The step lemma `Change.encoded` and the run lemma
`encoded_runCalls` follow. -/

/-- Every active row is the row of a record. -/
def Database.Encoded (db : Database) : Prop :=
  ∀ row ∈ db.workspaces, ∃ record, row = recordRow record

/-- A row that is stamped and passes the `CHECK`s is the row of a record with the
same reservation and what was stamped. -/
theorem recordRow_stamped {record : WorkspaceRecord} {state : WorkspaceState}
    {code : Option ErrorCode} {updatedAt : UnixMillis}
    (h : ((recordRow record).stamped state code updatedAt).check = true) :
    ∃ next : WorkspaceRecord, next.reservation = record.reservation ∧ next.state = state ∧
      next.lastErrorCode = code ∧ next.updatedAt = updatedAt ∧
      (recordRow record).stamped state code updatedAt = recordRow next := by
  obtain ⟨hcode, htime⟩ := WorkspaceRow.check_spec h
  have herror : state = .error ↔ code.isSome = true := by
    rw [← WorkspaceState.asStr_inj]
    refine Iff.trans hcode ?_
    show (code.map ErrorCode.asStr).isSome = true ↔ _
    rw [Option.isSome_map]
  exact ⟨⟨record.reservation, state, code, updatedAt, htime, herror⟩, rfl, rfl, rfl, rfl, rfl⟩

/-- An update that stamps rows leaves rows that are written for records. -/
theorem Database.Encoded.update {db : Database} (h : db.Encoded) {receipts : List ReceiptRow}
    {cond : WorkspaceRow → Bool} {state : WorkspaceState} {code : Option ErrorCode}
    {updatedAt : UnixMillis} {n : ℕ} {e : SqlError} {rows : List WorkspaceRow}
    (hrows : Sql.updateWhere db.workspaces cond (fun row => row.stamped state code updatedAt)
      ({ db with receipts } : Database).checkUpdate e = .ok (n, rows)) :
    ∀ row ∈ rows, ∃ record, row = recordRow record := by
  intro row hrow
  rcases (Sql.mem_updateWhere hrows).mp hrow with ⟨hrow, _⟩ | ⟨old, hold, _, hcheck, rfl⟩
  · exact h row hrow
  · obtain ⟨record, rfl⟩ := h old hold
    obtain ⟨next, _, _, _, _, hnext⟩ := recordRow_stamped (checkUpdate_spec hcheck).2.2.2.2.2.2
    exact ⟨next, hnext⟩

/-- The record of a reservation that was just made. -/
def reservedRecord (reservation : WorkspaceReservation) : WorkspaceRecord where
  reservation := reservation
  state := .creating
  lastErrorCode := none
  updatedAt := reservation.createdAt
  created_le_updated := Int.le_refl _
  error_iff := by decide

variable {db db' : Database}

/-- **One step.**  Every change keeps the table readable. -/
theorem Change.encoded (h : Change db db') (hdb : db.Encoded) : db'.Encoded := by
  cases h with
  | unchanged => exact hdb
  | @reserved reservation _ insert =>
    obtain ⟨rfl, _⟩ := insertWorkspace_ok insert
    intro row hrow
    rcases List.mem_append.mp hrow with hrow | hrow
    · exact hdb row hrow
    · exact ⟨reservedRecord reservation, List.mem_singleton.mp hrow⟩
  | completed insert update =>
    obtain ⟨rfl, _⟩ := insertReceipt_ok insert
    obtain ⟨rows, hrows, rfl⟩ := updateWorkspace_ok update
    exact hdb.update hrows
  | left leaves update =>
    obtain ⟨rows, hrows, rfl⟩ := updateWorkspace_ok update
    exact @Database.Encoded.update db hdb db.receipts _ _ _ _ _ _ _ hrows
  | deleted insert delete =>
    obtain ⟨rfl, _⟩ := insertTombstone_ok insert
    obtain ⟨_, _, hrows, _⟩ := deleteWorkspace_ok delete
    exact fun row hrow => hdb row ((hrows row).mp hrow).1

/-- **The run.**  Every row of a reachable database is the row of a record. -/
theorem encoded_runCalls (json : JsonLibrary) (installation : InstallationRecord)
    (calls : List (Call × List Bool)) :
    (runCalls json installation (.initialized installation) calls).Encoded :=
  runCalls_preserves json installation (fun _ _ hdb h => h.encoded hdb)
    (fun _ hrow => absurd hrow List.not_mem_nil) calls

/-! ### Where a row comes from

The columns that identify a row, and those of its target, are written by a reservation and
by nothing else.  This traces any active row back to the reservation that made it. -/

/-- An update keeps the identity, the target and the volume of every row. -/
theorem updateWorkspace_origin {id expected : String} {assign : WorkspaceRow → WorkspaceRow}
    {n : ℕ} (h : db.updateWorkspace id expected assign = .ok (n, db')) {row : WorkspaceRow}
    (hrow : row ∈ db'.workspaces) :
    ∃ old ∈ db.workspaces, old.workspaceId = row.workspaceId ∧
      old.targetPath = row.targetPath ∧ old.targetVolumeId = row.targetVolumeId := by
  obtain ⟨rows, hrows, rfl⟩ := updateWorkspace_ok h
  rcases (Sql.mem_updateWhere hrows).mp hrow with ⟨hrow, _⟩ | ⟨old, hold, _, hcheck, rfl⟩
  · exact ⟨row, hrow, rfl, rfl, rfl⟩
  · obtain ⟨hid, _, htarget, _, hvolume, _⟩ := checkUpdate_spec hcheck
    exact ⟨old, hold, hid, htarget, hvolume⟩

/-- Where an active row comes from: an older row with the same identity and volume,
or a reservation of a new identity. -/
theorem Change.row_origin (h : Change db db') {row : WorkspaceRow} (hrow : row ∈ db'.workspaces) :
    (∃ old ∈ db.workspaces, old.workspaceId = row.workspaceId ∧
        old.targetPath = row.targetPath ∧ old.targetVolumeId = row.targetVolumeId) ∨
      (∀ old ∈ db.workspaces, old.workspaceId ≠ row.workspaceId) ∧
        ∃ reservation, db.insertWorkspace (reservationRow reservation) = .ok ((), db') ∧
          row = reservationRow reservation := by
  cases h with
  | unchanged => exact .inl ⟨row, hrow, rfl, rfl, rfl⟩
  | reserved insert =>
    obtain ⟨hdb, hfresh, _⟩ := insertWorkspace_ok insert
    rw [hdb] at hrow
    rcases List.mem_append.mp hrow with hrow | hrow
    · exact .inl ⟨row, hrow, rfl, rfl, rfl⟩
    · rw [List.mem_singleton.mp hrow]
      exact .inr ⟨fun old hold => (hfresh old hold).1, _, insert, rfl⟩
  | completed insert update =>
    obtain ⟨rfl, _⟩ := insertReceipt_ok insert
    exact .inl (updateWorkspace_origin update hrow)
  | left leaves update =>
    exact .inl (updateWorkspace_origin update hrow)
  | deleted insert delete =>
    obtain ⟨rfl, _⟩ := insertTombstone_ok insert
    obtain ⟨_, _, hrows, _⟩ := deleteWorkspace_ok delete
    exact .inl ⟨row, ((hrows row).mp hrow).1, rfl, rfl, rfl⟩

/-! ### No new row

Everything but a reservation leaves rows that were there before, as far as identity and
target go.  It is what makes a check of the active rows, made under the lock of the store,
still true behind the other calls. -/

/-- Every row of the second database is one of the first as far as its identity
and its target go. -/
def Database.Inherits (db db' : Database) : Prop :=
  ∀ row ∈ db'.workspaces, ∃ old ∈ db.workspaces,
    old.workspaceId = row.workspaceId ∧ old.targetPath = row.targetPath

/-- A database inherits from itself. -/
theorem Database.Inherits.refl (db : Database) : db.Inherits db :=
  fun row hrow => ⟨row, hrow, rfl, rfl⟩

/-- An update leaves rows that come from the old ones. -/
theorem updateWorkspace_inherits {id expected : String} {assign : WorkspaceRow → WorkspaceRow}
    {n : ℕ} (h : db.updateWorkspace id expected assign = .ok (n, db')) : db.Inherits db' := by
  intro row hrow
  obtain ⟨old, hold, hid, htarget, _⟩ := updateWorkspace_origin h hrow
  exact ⟨old, hold, hid, htarget⟩

/-- A completion leaves rows that come from the old ones. -/
theorem completeMaterialization_inherits {json : JsonLibrary} {id : WorkspaceId}
    {plan : MaterializationPlan} {receipt : MaterializationReceipt} {recordedAt : UnixMillis} :
    Session.Leaves Database.Inherits
      (completeMaterialization json id plan receipt recordedAt) := by
  refine completeMaterialization_leaves Database.Inherits.refl
    fun db mid db' row _ insert update => ?_
  obtain ⟨rfl, _⟩ := insertReceipt_ok insert
  have hmid := updateWorkspace_inherits update
  exact fun row hrow => hmid row hrow

/-- A recorded failure does too. -/
theorem recordFailure_inherits {id : WorkspaceId} {expected : WorkspaceState} {code : ErrorCode}
    {updatedAt : UnixMillis} :
    Session.Leaves Database.Inherits (recordFailure id expected code updatedAt) :=
  recordFailure_leaves Database.Inherits.refl fun _ _ _ => updateWorkspace_inherits

/-- The beginning of a removal does too. -/
theorem beginRemoval_inherits {id : WorkspaceId} {expected : WorkspaceState} {mode : RemovalMode}
    {updatedAt : UnixMillis} :
    Session.Leaves Database.Inherits (beginRemoval id expected mode updatedAt) :=
  beginRemoval_leaves Database.Inherits.refl fun _ _ _ => updateWorkspace_inherits

/-- A completed deletion does too: it only takes rows away. -/
theorem completeDeletion_inherits {id : WorkspaceId} {instanceId : InstanceId}
    {deletedAt : UnixMillis} :
    Session.Leaves Database.Inherits (completeDeletion id instanceId deletedAt) := by
  refine completeDeletion_leaves Database.Inherits.refl
    fun db mid db' tombstone _ insert delete => ?_
  obtain ⟨rfl, _⟩ := insertTombstone_ok insert
  obtain ⟨_, _, hrows, _⟩ := deleteWorkspace_ok delete
  exact fun row hrow => ⟨row, ((hrows row).mp hrow).1, rfl, rfl⟩

end Metadata
end ThinWorkspace
