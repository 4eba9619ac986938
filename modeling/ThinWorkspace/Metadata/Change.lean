/-
# What the store can do to the database

`Change db db'` lists the committed effects a call of the store can have: none,
an inserted reservation, a receipt together with its Ready row, a row that left
for `deleting` or `error`, and a deletion with its tombstone.  Each of the five
operations of `ThinWorkspace.Metadata.Store`, run with any arguments against any
faults, has one of them (`reserveWorkspace_change` and its siblings), whether it
returns or fails.  Every later fact about runs is proved of `Change`.
-/

import ThinWorkspace.Metadata.Store

namespace ThinWorkspace
namespace Metadata

open ThinWorkspace.Core Lib Ports

/-! ### Statement specifications

Each statement of the schema has a specification in terms of the rows: which row was added,
changed or taken away, and what the triggers and constraints said of it.  Behind these
lemmas no proof looks at the SQL again. -/

section Statements

variable {db db' : Database}

/-- An insertion that is accepted appends the row, which is being created, passes its checks and
differs from every other in its identifier, name and target path. -/
theorem insertWorkspace_ok {new : WorkspaceRow} {u : Unit}
    (h : db.insertWorkspace new = .ok (u, db')) :
    db' = { db with workspaces := db.workspaces ++ [new] } ∧
      (∀ r ∈ db.workspaces, r.workspaceId ≠ new.workspaceId ∧ r.name ≠ new.name ∧
        r.targetPath ≠ new.targetPath) ∧
      new.check = true ∧ new.state = "creating" ∧ new.lastErrorCode = none ∧
      new.sourceVolumeId = new.targetVolumeId ∧
      (∀ t ∈ db.tombstones, t.workspaceId ≠ new.workspaceId) := by
  unfold Database.insertWorkspace at h
  split at h
  · rename_i hg
    cases h
    simp only [Bool.and_eq_true, Database.workspacesInsertGuard, Database.workspaceUnique,
      Bool.not_eq_true', List.any_eq_false, List.all_eq_true, bne_iff_ne, ne_eq,
      Bool.or_eq_false_iff, bne_eq_false_iff_eq, beq_iff_eq, Option.isSome_eq_false_iff,
      Option.isNone_iff_eq_none] at hg
    obtain ⟨⟨⟨⟨⟨⟨_, hstate, hcode⟩, _, hvol⟩, htomb⟩, hcheck⟩, huniq⟩, _⟩ := hg
    exact ⟨rfl, fun r hr => ⟨(huniq r hr).1.1, (huniq r hr).1.2, (huniq r hr).2⟩, hcheck, hstate,
      hcode, hvol, htomb⟩
  · cases h

/-- What the triggers of an update compare: identifiers, name, path and volumes stay, the time does
not go back, and the new row passes its own checks. -/
theorem checkUpdate_spec {old new : WorkspaceRow} (h : db.checkUpdate old new = true) :
    old.workspaceId = new.workspaceId ∧ old.name = new.name ∧ old.targetPath = new.targetPath ∧
      old.sourceVolumeId = new.sourceVolumeId ∧ old.targetVolumeId = new.targetVolumeId ∧
      old.updatedAt ≤ new.updatedAt ∧ new.check = true := by
  simp only [Database.checkUpdate, Database.workspacesImmutableFields,
    Database.workspacesTimestampMonotonic, Bool.and_eq_true, beq_iff_eq, decide_eq_true_eq] at h
  grind

/-- An update that is accepted is an accepted `UPDATE … WHERE` of the workspace rows and touches no
other table. -/
theorem updateWorkspace_ok {workspaceId expected : String} {assign : WorkspaceRow → WorkspaceRow}
    {n : ℕ} (h : db.updateWorkspace workspaceId expected assign = .ok (n, db')) :
    ∃ rows, Sql.updateWhere db.workspaces
        (fun r => r.workspaceId == workspaceId && r.state == expected) assign db.checkUpdate
        SqlError.constraint = .ok (n, rows) ∧ db' = { db with workspaces := rows } := by
  unfold Database.updateWorkspace at h
  cases hu : Sql.updateWhere db.workspaces
      (fun r => r.workspaceId == workspaceId && r.state == expected) assign db.checkUpdate
      SqlError.constraint with
  | error e => simp [hu, Except.map] at h
  | ok p =>
    simp only [hu, Except.map, Except.ok.injEq, Prod.mk.injEq] at h
    obtain ⟨rfl, rfl⟩ := h
    exact ⟨p.2, rfl, rfl⟩

/-- A receipt that is accepted is appended; it belongs to a workspace that is being created and has
none yet. -/
theorem insertReceipt_ok {jsonValid : String → Bool} {new : ReceiptRow} {u : Unit}
    (h : db.insertReceipt jsonValid new = .ok (u, db')) :
    db' = { db with receipts := db.receipts ++ [new] } ∧
      (∀ x ∈ db.receipts, x.workspaceId ≠ new.workspaceId) ∧
      ∃ w ∈ db.workspaces, w.workspaceId = new.workspaceId ∧ w.state = "creating" := by
  unfold Database.insertReceipt at h
  split at h
  · rename_i hg
    cases h
    simp only [Bool.and_eq_true, Database.receiptsInsertGuard, Bool.not_eq_true',
      List.any_eq_false, beq_iff_eq, Option.any_eq_true, Database.selectWorkspace] at hg
    obtain ⟨⟨⟨hfresh, w, hw, hstate⟩, _⟩, _⟩ := hg
    exact ⟨rfl, hfresh, w, List.mem_of_find?_eq_some hw, by simpa using List.find?_some hw, hstate⟩
  · cases h

/-- A tombstone that is accepted is appended; it belongs to a workspace that is being deleted. -/
theorem insertTombstone_ok {new : TombstoneRow} {u : Unit}
    (h : db.insertTombstone new = .ok (u, db')) :
    db' = { db with tombstones := db.tombstones ++ [new] } ∧
      ∃ w ∈ db.workspaces, w.workspaceId = new.workspaceId ∧ w.state = "deleting" := by
  unfold Database.insertTombstone at h
  split at h
  · rename_i hg
    cases h
    simp only [Bool.and_eq_true, Database.tombstonesInsertGuard, List.any_eq_true, beq_iff_eq] at hg
    obtain ⟨⟨⟨_, w, hw, ⟨hid, _⟩, hstate⟩, _⟩, _⟩ := hg
    exact ⟨rfl, w, hw, hid, hstate⟩
  · cases h

/-- A deletion that is accepted removes the rows of that workspace that are being deleted, and with
them their receipts, and nothing else. -/
theorem deleteWorkspace_ok {workspaceId : String} {n : ℕ}
    (h : db.deleteWorkspace workspaceId = .ok (n, db')) :
    db'.installation = db.installation ∧ db'.tombstones = db.tombstones ∧
      (∀ r, r ∈ db'.workspaces ↔
        r ∈ db.workspaces ∧ Database.isDeleting workspaceId r = false) ∧
      (∀ x, x ∈ db'.receipts ↔ x ∈ db.receipts ∧
        ∀ w ∈ db.workspaces, Database.isDeleting workspaceId w = true →
          w.workspaceId ≠ x.workspaceId) ∧
      db'.workspaces.Sublist db.workspaces ∧ db'.receipts.Sublist db.receipts := by
  unfold Database.deleteWorkspace at h
  cases hw : Sql.deleteWhere db.workspaces (Database.isDeleting workspaceId)
      db.workspacesDeleteRequiresTombstone SqlError.constraint with
  | error e => simp [hw, bind, Except.bind] at h
  | ok p =>
    cases hx : Sql.deleteWhere db.receipts
        (fun r => db.workspaces.any fun w =>
          Database.isDeleting workspaceId w && w.workspaceId == r.workspaceId)
        (Database.receiptsNoDirectDelete p.2) SqlError.constraint with
    | error e => simp [hw, hx, bind, Except.bind] at h
    | ok q =>
      simp only [hw, hx, bind, Except.bind, pure, Except.pure, Except.ok.injEq,
        Prod.mk.injEq] at h
      obtain ⟨rfl, rfl⟩ := h
      refine ⟨rfl, rfl, fun r => Sql.mem_deleteWhere hw, fun x => ?_, ?_, ?_⟩
      · rw [Sql.mem_deleteWhere hx]
        simp only [List.any_eq_false, Bool.and_eq_true, beq_iff_eq, not_and, ne_eq]
      · rw [(Sql.deleteWhere_ok hw).2.1]
        exact List.filter_sublist
      · rw [(Sql.deleteWhere_ok hx).2.1]
        exact List.filter_sublist

end Statements

/-! ### Changes

The effects of a call as data.  A change names the rows it concerns and carries what its
statements checked, so an invariant is kept by every call when it is kept by these five
cases. -/

/-- The committed effects of one call, each given by the statements of the store that bring it
about. -/
inductive Change (db : Database) : Database → Prop
  /-- Nothing was committed. -/
  | unchanged : Change db db
  /-- A reservation was inserted. -/
  | reserved {reservation : WorkspaceReservation} {db' : Database}
      (insert : db.insertWorkspace (reservationRow reservation) = .ok ((), db')) : Change db db'
  /-- The receipt was inserted and its row became Ready, in one transaction. -/
  | completed {jsonValid : String → Bool} {receipt : ReceiptRow} {recordedAt : UnixMillis}
      {mid db' : Database} (insert : db.insertReceipt jsonValid receipt = .ok ((), mid))
      (update : mid.updateWorkspace receipt.workspaceId "creating"
        (fun row => row.stamped .ready none recordedAt) = .ok (1, db')) : Change db db'
  /-- A row left for `deleting` or `error`. -/
  | left {workspaceId expected : String} {state : WorkspaceState} {code : Option ErrorCode}
      {updatedAt : UnixMillis} {n : ℕ} {db' : Database}
      (leaves : state = .error ∨ state = .deleting)
      (update : db.updateWorkspace workspaceId expected
        (fun row => row.stamped state code updatedAt) = .ok (n, db')) : Change db db'
  /-- A tombstone was inserted and its row deleted, in one transaction. -/
  | deleted {tombstone : TombstoneRow} {mid db' : Database}
      (insert : db.insertTombstone tombstone = .ok ((), mid))
      (delete : mid.deleteWorkspace tombstone.workspaceId = .ok (1, db')) : Change db db'

/-- A call that commits nothing is a change, the trivial one. -/
theorem Change.refl (db : Database) : Change db db := .unchanged

/-! ### Reads change nothing

The parts of the operations that only read.  They are neutral in a sequence, so the
operations are left with their writes. -/

section Reads

variable {workspaceId : WorkspaceId} {expected : WorkspaceState} {operation : String}

/-- Reading a workspace leaves the database as it is. -/
theorem reads_readWorkspace : Session.Reads (readWorkspace workspaceId) :=
  Session.reads_query.bind fun
    | none => Session.reads_pure
    | some _ => Session.reads_ofExcept

/-- Looking at the number of changed rows, and at the row once more, leaves the database as it is.
-/
theorem reads_finishExpectedUpdate {changed : ℕ} :
    Session.Reads (finishExpectedUpdate workspaceId expected operation changed) := by
  unfold finishExpectedUpdate
  split
  · exact reads_readWorkspace.bind fun
      | none => Session.reads_throw
      | some _ => Session.reads_throw
  · exact reads_readWorkspace.bind fun
      | none => Session.reads_throw
      | some _ => Session.reads_require.bind fun _ => Session.reads_pure

/-- Requiring a state of the workspace leaves the database as it is. -/
theorem reads_requireExpected :
    Session.Reads (requireExpected workspaceId expected operation) :=
  reads_readWorkspace.bind fun
    | none => Session.reads_throw
    | some _ => Session.reads_require.bind fun _ => Session.reads_pure

/-- Looking for the reason of a refused insertion leaves the database as it is. -/
theorem reads_classifyReservationError {reservation : WorkspaceReservation} {error : SqlError} :
    Session.Reads (classifyReservationError reservation error : Store Unit) := by
  cases error with
  | storage => exact Session.reads_throw
  | constraint =>
    refine Session.Reads.bind (Session.reads_query.handle fun _ => Session.reads_pure) fun
      | none => Session.reads_throw
      | some _ => Session.reads_throw

end Reads

/-! ### The operations

What each operation leaves is what its writes leave, in a transaction or by themselves, and
this is a change.  The lemmas speak of every end of an operation, whether it returned, was
refused, or met a fault. -/

section Operations

variable {R : Database → Database → Prop} {workspaceId : WorkspaceId}

/-- A reservation leaves what its insertion leaves, or nothing new. -/
theorem reserveWorkspace_leaves {installation : InstallationRecord}
    {reservation : WorkspaceReservation} (hR : ∀ db, R db db)
    (hinsert : ∀ db db', db.insertWorkspace (reservationRow reservation) = .ok ((), db') →
      R db db') :
    Session.Leaves R (reserveWorkspace installation reservation) := by
  refine Session.reads_require.bind_leaves hR fun _ => ?_
  refine Session.Leaves.bind_reads (Session.Leaves.handle ?_ fun _ =>
    reads_classifyReservationError) fun _ => Session.reads_ofExcept
  exact Session.leaves_exec hR fun db _ db' h => hinsert db db' h

/-- A completion leaves what its two statements leave, or nothing new. -/
theorem completeMaterialization_leaves {json : JsonLibrary} {plan : MaterializationPlan}
    {receipt : MaterializationReceipt} {recordedAt : UnixMillis} (hR : ∀ db, R db db)
    (hcomplete : ∀ db mid db' (row : ReceiptRow), row.workspaceId = workspaceId.toText →
      db.insertReceipt json.jsonValid row = .ok ((), mid) →
      mid.updateWorkspace row.workspaceId "creating"
        (fun row => row.stamped .ready none recordedAt) = .ok (1, db') → R db db') :
    Session.Leaves R (completeMaterialization json workspaceId plan receipt recordedAt) := by
  refine Session.leaves_transaction hR fun c ready c' h => ?_
  obtain ⟨found, c₁, hread, h⟩ := Session.bind_ok h
  have h₁ := reads_readWorkspace.ok hread
  cases found with
  | none => cases h
  | some record =>
    obtain ⟨_, h⟩ := Session.require_bind_ok h
    obtain ⟨_, _, h⟩ := Session.ofExcept_bind_ok h
    obtain ⟨_, h⟩ := Session.require_bind_ok h
    obtain ⟨_, c₂, hinsert, h⟩ := Session.exec_bind_ok h
    obtain ⟨changed, c₃, hupdate, h⟩ := Session.exec_bind_ok h
    obtain ⟨hchanged, h⟩ := Session.require_bind_ok h
    obtain ⟨again, c₄, hagain, h⟩ := Session.bind_ok h
    have h₂ := reads_readWorkspace.ok hagain
    cases again with
    | none => cases h
    | some record' =>
      obtain ⟨_, hc⟩ := Session.pure_ok h
      rw [h₁, hc, ← h₂]
      exact hcomplete _ _ _ _ rfl hinsert (hchanged ▸ hupdate)

/-- A guarded update leaves what its statement leaves, or nothing new. -/
theorem expectedUpdate_leaves {expected : WorkspaceState} {operation : String}
    {assign : WorkspaceRow → WorkspaceRow} (hR : ∀ db, R db db)
    (hupdate : ∀ db n db', db.updateWorkspace workspaceId.toText expected.asStr assign =
      .ok (n, db') → R db db') :
    Session.Leaves R (expectedUpdate workspaceId expected operation assign) :=
  Session.Leaves.bind_reads
    (Session.Leaves.mapError (Session.leaves_exec hR hupdate))
    fun _ => reads_finishExpectedUpdate

/-- `record_failure` leaves what its guarded update leaves, or nothing new. -/
theorem recordFailure_leaves {expected : WorkspaceState} {errorCode : ErrorCode}
    {updatedAt : UnixMillis} (hR : ∀ db, R db db)
    (hupdate : ∀ db n db', db.updateWorkspace workspaceId.toText expected.asStr
      (fun row => row.stamped .error (some errorCode) updatedAt) = .ok (n, db') → R db db') :
    Session.Leaves R (recordFailure workspaceId expected errorCode updatedAt) :=
  Session.reads_ofExcept.bind_leaves hR fun _ => expectedUpdate_leaves hR hupdate

/-- `begin_removal` leaves what its guarded update leaves, or nothing new: a mode the state does
not allow is refused before it. -/
theorem beginRemoval_leaves {expected : WorkspaceState} {mode : RemovalMode}
    {updatedAt : UnixMillis} (hR : ∀ db, R db db)
    (hupdate : ∀ db n db', db.updateWorkspace workspaceId.toText expected.asStr
      (fun row => row.stamped .deleting none updatedAt) = .ok (n, db') → R db db') :
    Session.Leaves R (beginRemoval workspaceId expected mode updatedAt) := by
  refine Session.reads_ofExcept.bind_leaves hR fun next => ?_
  split
  · exact reads_requireExpected.leaves hR
  · exact expectedUpdate_leaves hR hupdate

/-- A deletion leaves what its two statements leave, or nothing new. -/
theorem completeDeletion_leaves {instanceId : InstanceId} {deletedAt : UnixMillis}
    (hR : ∀ db, R db db)
    (hdelete : ∀ db mid db' (tombstone : TombstoneRow),
      tombstone.workspaceId = workspaceId.toText →
      db.insertTombstone tombstone = .ok ((), mid) →
      mid.deleteWorkspace tombstone.workspaceId = .ok (1, db') → R db db') :
    Session.Leaves R (completeDeletion workspaceId instanceId deletedAt) := by
  refine Session.leaves_transaction hR fun c tombstone c' h => ?_
  obtain ⟨c₁, h₁, h⟩ := Session.query_bind_ok h
  cases hfound : c.data.selectWorkspace workspaceId.toText with
  | none => rw [hfound] at h; cases h
  | some row =>
    rw [hfound] at h
    obtain ⟨_, h⟩ := Session.require_bind_ok h
    obtain ⟨_, h⟩ := Session.require_bind_ok h
    obtain ⟨_, c₂, hinsert, h⟩ := Session.exec_bind_ok h
    obtain ⟨deleted, c₃, hdeleted, h⟩ := Session.exec_bind_ok h
    obtain ⟨hcount, h⟩ := Session.require_bind_ok h
    obtain ⟨_, hc⟩ := Session.pure_ok h
    rw [← h₁, hc]
    exact hdelete _ _ _ _ rfl hinsert (hcount ▸ hdeleted)

end Operations

/-- **A reservation is a change**: it inserts its row or commits nothing, whatever faults its
statements meet. -/
theorem reserveWorkspace_change (installation : InstallationRecord)
    (reservation : WorkspaceReservation) :
    Session.Leaves Change (reserveWorkspace installation reservation) :=
  reserveWorkspace_leaves Change.refl fun _ _ h => .reserved h

/-- **A completion is a change**: the receipt and the Ready row come together or not at all. -/
theorem completeMaterialization_change (json : JsonLibrary) (workspaceId : WorkspaceId)
    (plan : MaterializationPlan) (receipt : MaterializationReceipt) (recordedAt : UnixMillis) :
    Session.Leaves Change
      (completeMaterialization json workspaceId plan receipt recordedAt) :=
  completeMaterialization_leaves Change.refl fun _ _ _ _ _ insert update =>
    .completed insert update

/-- **A recorded failure is a change**: the row leaves for `error`, or nothing is committed. -/
theorem recordFailure_change (workspaceId : WorkspaceId) (expected : WorkspaceState)
    (errorCode : ErrorCode) (updatedAt : UnixMillis) :
    Session.Leaves Change (recordFailure workspaceId expected errorCode updatedAt) :=
  recordFailure_leaves Change.refl fun _ _ _ h => .left (.inl rfl) h

/-- **The beginning of a removal is a change**: the row leaves for `deleting`, or nothing is
committed. -/
theorem beginRemoval_change (workspaceId : WorkspaceId) (expected : WorkspaceState)
    (mode : RemovalMode) (updatedAt : UnixMillis) :
    Session.Leaves Change (beginRemoval workspaceId expected mode updatedAt) :=
  beginRemoval_leaves Change.refl fun _ _ _ h => .left (.inr rfl) h

/-- **A completed deletion is a change**: the tombstone is written and the row deleted together, or
nothing is committed. -/
theorem completeDeletion_change (workspaceId : WorkspaceId) (instanceId : InstanceId)
    (deletedAt : UnixMillis) :
    Session.Leaves Change (completeDeletion workspaceId instanceId deletedAt) :=
  completeDeletion_leaves Change.refl fun _ _ _ _ _ insert delete => .deleted insert delete

/-! ### Calls

A run of the store is a list of calls with arbitrary arguments and faults.
`runCalls_preserves` is the induction that every invariant of the store goes through, so
that an invariant is proved of one change and holds of all runs. -/

/-- One call of a store operation with its arguments: the five operations that write. -/
inductive Call where
  | reserveWorkspace (reservation : WorkspaceReservation)
  | completeMaterialization (workspaceId : WorkspaceId) (plan : MaterializationPlan)
      (receipt : MaterializationReceipt) (recordedAt : UnixMillis)
  | recordFailure (workspaceId : WorkspaceId) (expected : WorkspaceState)
      (errorCode : ErrorCode) (updatedAt : UnixMillis)
  | beginRemoval (workspaceId : WorkspaceId) (expected : WorkspaceState) (mode : RemovalMode)
      (updatedAt : UnixMillis)
  | completeDeletion (workspaceId : WorkspaceId) (instanceId : InstanceId)
      (deletedAt : UnixMillis)

variable (json : JsonLibrary) (installation : InstallationRecord)

/-- The database a call leaves, with the faults its statements meet, whether the call returns or
fails. -/
def Call.run (call : Call) (faults : List Bool) (db : Database) : Database :=
  match call with
  | .reserveWorkspace reservation =>
    Session.dataAfter (Metadata.reserveWorkspace installation reservation) ⟨db, faults⟩
  | .completeMaterialization workspaceId plan receipt recordedAt =>
    Session.dataAfter
      (Metadata.completeMaterialization json workspaceId plan receipt recordedAt) ⟨db, faults⟩
  | .recordFailure workspaceId expected errorCode updatedAt =>
    Session.dataAfter
      (Metadata.recordFailure workspaceId expected errorCode updatedAt) ⟨db, faults⟩
  | .beginRemoval workspaceId expected mode updatedAt =>
    Session.dataAfter (Metadata.beginRemoval workspaceId expected mode updatedAt) ⟨db, faults⟩
  | .completeDeletion workspaceId instanceId deletedAt =>
    Session.dataAfter
      (Metadata.completeDeletion workspaceId instanceId deletedAt) ⟨db, faults⟩

/-- **One call, one change.**  Whatever the arguments, the faults and the outcome. -/
theorem Call.run_change (call : Call) (faults : List Bool) (db : Database) :
    Change db (call.run json installation faults db) := by
  cases call with
  | reserveWorkspace reservation =>
    exact reserveWorkspace_change installation reservation ⟨db, faults⟩
  | completeMaterialization workspaceId plan receipt recordedAt =>
    exact completeMaterialization_change json workspaceId plan receipt recordedAt ⟨db, faults⟩
  | recordFailure workspaceId expected errorCode updatedAt =>
    exact recordFailure_change workspaceId expected errorCode updatedAt ⟨db, faults⟩
  | beginRemoval workspaceId expected mode updatedAt =>
    exact beginRemoval_change workspaceId expected mode updatedAt ⟨db, faults⟩
  | completeDeletion workspaceId instanceId deletedAt =>
    exact completeDeletion_change workspaceId instanceId deletedAt ⟨db, faults⟩

/-- The database after a sequence of calls, each with its own faults. -/
def runCalls (db : Database) (calls : List (Call × List Bool)) : Database :=
  calls.foldl (fun db call => call.1.run json installation call.2 db) db

/-- A list of calls after another is run from what the first list leaves. -/
theorem runCalls_append (db : Database) (calls later : List (Call × List Bool)) :
    runCalls json installation db (calls ++ later) =
      runCalls json installation (runCalls json installation db calls) later :=
  List.foldl_append

/-- The last call of a list is run from what the others leave. -/
theorem runCalls_concat (db : Database) (calls : List (Call × List Bool))
    (call : Call × List Bool) :
    runCalls json installation db (calls ++ [call]) =
      call.1.run json installation call.2 (runCalls json installation db calls) :=
  runCalls_append json installation db calls [call]

/-- What every change preserves, a sequence of calls preserves: the induction behind every
invariant of the store. -/
theorem runCalls_preserves {P : Database → Prop} (step : ∀ db db', P db → Change db db' → P db')
    {db : Database} (h : P db) (calls : List (Call × List Bool)) :
    P (runCalls json installation db calls) :=
  List.foldlRecOn calls _ h fun db hdb call _ =>
    step db _ hdb (call.1.run_change json installation call.2 db)

end Metadata

/-! ### A small installation

Values on which the samples of the store's theorems run: one installation, one reservation
and its records.  The identifiers are version 7 values by construction, and
`sampleDatabase_reachable` shows that the database is one that a call leads to. -/

open ThinWorkspace.Core Lib
open Metadata (Database)

variable (json : JsonLibrary)

/-- A remainder by sixteen is a hexadecimal digit, so every number gives one. -/
theorem sampleDigit_lt (n : ℕ) : n % 16 < 16 := Nat.mod_lt n (by decide)

/-- A hexadecimal digit, by its value modulo sixteen. -/
def sampleDigit (n : ℕ) : Fin 16 := ⟨n % 16, sampleDigit_lt n⟩

/-- The digits of a version 7 value with the given last digit. -/
def sampleDigits (last : Fin 16) : List (Fin 16) :=
  List.replicate 12 (sampleDigit 0) ++
    [sampleDigit 7, sampleDigit 0, sampleDigit 0, sampleDigit 0, sampleDigit 8] ++
    List.replicate 14 (sampleDigit 0) ++ [last]

/-- The sample digits are as many as a UUID has. -/
theorem length_sampleDigits (last : Fin 16) : (sampleDigits last).length = 32 := rfl

/-- The sample digits have the version and the variant of a version 7 value. -/
theorem sampleDigits_isV7 (last : Fin 16) :
    (⟨sampleDigits last, length_sampleDigits last⟩ : Uuid).IsV7 := by
  decide +revert

/-- A version 7 value with the given last digit. -/
def sampleUuid (last : ℕ) : UuidV7 :=
  ⟨⟨sampleDigits (sampleDigit last), length_sampleDigits _⟩, sampleDigits_isV7 _⟩

/-- A JSON library no document is ever asked of, for samples that store no receipt. -/
def sampleLibrary : JsonLibrary := ⟨fun _ => "", fun _ => none, fun _ => true⟩

/-- A slash and one letter is an absolute path. -/
theorem validatePath_letter (n : ℕ) :
    validatePath [slash, UInt8.ofNat (97 + n % 26)] = .ok () := by
  have hletters : ∀ letter : Fin 26,
      validatePath [slash, UInt8.ofNat (97 + letter.val)] = .ok () := by
    decide
  exact hletters ⟨n % 26, Nat.mod_lt n (by decide)⟩

/-- The path `/a`, `/b` and so on, by a number. -/
def samplePath (n : ℕ) : AbsolutePath :=
  ⟨[slash, UInt8.ofNat (97 + n % 26)], validatePath_letter n⟩

/-- The time zero is representable, as the type of a time demands. -/
theorem sampleStart_bounds : (0 : ℤ) ≤ 0 ∧ (0 : ℤ) ≤ i64Max := by decide

/-- The time of the reservation, which is the epoch. -/
def sampleStart : UnixMillis := ⟨0, sampleStart_bounds.1, sampleStart_bounds.2⟩

/-- The time one is representable, as the type of a time demands. -/
theorem sampleLater_bounds : (0 : ℤ) ≤ 1 ∧ (1 : ℤ) ≤ i64Max := by decide

/-- The time of the removal, one millisecond later. -/
def sampleLater : UnixMillis := ⟨1, sampleLater_bounds.1, sampleLater_bounds.2⟩

/-- The installation of `/c`, which the samples belong to. -/
def sampleInstallation : InstallationRecord where
  identity := ⟨sampleUuid 2, samplePath 2, ⟨(sampleUuid 3).asUuid⟩⟩
  createdAt := sampleStart

/-- One letter is a workspace name, the shortest there is. -/
theorem validateWorkspaceName_sample : validateWorkspaceName "a" = .ok () := by decide

/-- The reservation of a copy of `/s` at `/t`, full copy allowed. -/
def sampleReservation : WorkspaceReservation where
  workspaceId := ⟨sampleUuid 1⟩
  instanceId := sampleUuid 2
  name := ⟨"a", validateWorkspaceName_sample⟩
  sourcePath := samplePath 18
  targetPath := samplePath 19
  sourceVolumeId := ⟨(sampleUuid 3).asUuid⟩
  targetVolumeId := ⟨(sampleUuid 3).asUuid⟩
  allowFullCopy := true
  createdAt := sampleStart

/-- A record of the reservation without an error. -/
def sampleRecordIn (state : WorkspaceState) (updatedAt : UnixMillis)
    (hstate : state = .error ↔ (none : Option ErrorCode).isSome)
    (htime : sampleStart.get ≤ updatedAt.get) : WorkspaceRecord where
  reservation := sampleReservation
  state := state
  lastErrorCode := none
  updatedAt := updatedAt
  created_le_updated := htime
  error_iff := hstate

/-- A record that is being created has no error code. -/
theorem creating_iff : WorkspaceState.creating = .error ↔ (none : Option ErrorCode).isSome := by
  decide

/-- A record that is being deleted has no error code. -/
theorem deleting_iff : WorkspaceState.deleting = .error ↔ (none : Option ErrorCode).isSome := by
  decide

/-- A Ready record has no error code, as the relation of a record demands. -/
theorem ready_iff : WorkspaceState.ready = .error ↔ (none : Option ErrorCode).isSome := by
  decide

/-- A record that was never updated has its creation as its last update. -/
theorem sampleStart_le_start : sampleStart.get ≤ sampleStart.get := Int.le_refl _

/-- The removal is later than the creation, so the clock does not run backwards in the samples. -/
theorem sampleStart_le_later : sampleStart.get ≤ sampleLater.get := by decide

/-- The record of the reservation while it is being created. -/
def sampleRecord : WorkspaceRecord :=
  sampleRecordIn .creating sampleStart creating_iff sampleStart_le_start

/-- The same record once it is Ready, at the moment of its creation. -/
def sampleReady : WorkspaceRecord :=
  sampleRecordIn .ready sampleStart ready_iff sampleStart_le_start

/-- The same record once its removal has begun. -/
def sampleDeleting : WorkspaceRecord :=
  sampleRecordIn .deleting sampleLater deleting_iff sampleStart_le_later

/-- The database that holds the reservation and nothing else. -/
def sampleDatabase : Database :=
  { Database.initialized sampleInstallation with
    workspaces := [Metadata.reservationRow sampleReservation] }

/-- The database is what the reservation leaves, so it is one that calls reach. -/
theorem sampleDatabase_reachable : Metadata.runCalls json sampleInstallation
    (.initialized sampleInstallation) [(.reserveWorkspace sampleReservation, [])] =
      sampleDatabase := rfl

end ThinWorkspace
