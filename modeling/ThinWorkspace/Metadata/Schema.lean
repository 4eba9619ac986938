/-
# The metadata schema

Source: `crates/thinws-metadata-sqlite/src/schema_v2.sql`.  The four tables are
lists of rows with the source's columns, text columns as text and blobs as
bytes.  A statement is a function on the whole database that checks what SQLite
checks for it: the `BEFORE` triggers on the table, the `CHECK` constraints, the
primary keys and `UNIQUE` columns, and the foreign keys.  All of these refuse
with the one result code `SQLITE_CONSTRAINT`, so a refusal is
`SqlError.constraint` whichever of them fired.

The `installation` table holds one row from initialization on and no statement
of the store writes to it; it is kept as that row.
-/

import ThinWorkspace.Lib.Sql
import Mathlib.Data.Int.Notation

namespace ThinWorkspace
namespace Metadata

open Lib

/-- The two classes of statement failure the store distinguishes. -/
inductive SqlError where
  | constraint
  | storage
deriving DecidableEq

/-- A row of `installation`: the identity that every call of the store is compared with. -/
structure InstallationRow where
  instanceId : String
  controlRoot : List UInt8
  controlVolumeId : String
  createdAt : ℤ
deriving DecidableEq

/-- A row of `workspaces`, with the columns of the source; only the state, the error code and the
time of the last change are ever updated. -/
structure WorkspaceRow where
  workspaceId : String
  instanceId : String
  name : String
  sourcePath : List UInt8
  targetPath : List UInt8
  sourceVolumeId : String
  targetVolumeId : String
  allowFullCopy : ℤ
  state : String
  lastErrorCode : Option String
  createdAt : ℤ
  updatedAt : ℤ
deriving DecidableEq

/-- A row of `materialization_receipts`: the document as text, with the version it was written in.
-/
structure ReceiptRow where
  workspaceId : String
  receiptSchemaVersion : ℤ
  receiptJson : String
  recordedAt : ℤ
deriving DecidableEq

/-- A row of `deletion_tombstones`: what is left of a workspace once its row is gone. -/
structure TombstoneRow where
  workspaceId : String
  instanceId : String
  deletedAt : ℤ
deriving DecidableEq

/-- The database after initialization: one installation and three tables, whose rows are kept in
the order they were inserted in. -/
structure Database where
  installation : InstallationRow
  workspaces : List WorkspaceRow
  receipts : List ReceiptRow
  tombstones : List TombstoneRow
deriving DecidableEq

/-! ### CHECK constraints

Each `CHECK` as a Boolean on the text of its column, written in the SQL functions of
`Lib.Sql` with the patterns of the schema. -/

/-- `'*[^0-9a-f]*'`: the texts with a character that is no lower-case hexadecimal digit. -/
def notHexGlob : List Sql.Glob := [.star, .noneOf [('0', '9'), ('a', 'f')], .star]

/-- The hyphens, the digits and the absence of NUL that every UUID column asks
for; `offset` is the length of the type prefix. -/
def checkUuidShape (offset : ℕ) (s : String) : Bool :=
  Sql.length s == offset + 36 &&
    Sql.substr s (offset + 9) 1 == "-" &&
    Sql.substr s (offset + 14) 1 == "-" &&
    Sql.substr s (offset + 19) 1 == "-" &&
    Sql.substr s (offset + 24) 1 == "-" &&
    !Sql.contains s (String.singleton (Char.ofNat 0)) &&
    Sql.length (Sql.remove (String.ofList (s.toList.drop offset)) '-') == 32 &&
    !Sql.glob (Sql.remove (String.ofList (s.toList.drop offset)) '-') notHexGlob

/-- The version digit and the variant digit of a version 7 UUID column. -/
def checkUuidV7 (offset : ℕ) (s : String) : Bool :=
  Sql.substr s (offset + 15) 1 == "7" &&
    ["8", "9", "a", "b"].contains (Sql.substr s (offset + 20) 1)

/-- `CHECK` of `installation.instance_id`: the shape of a UUID, and the version and variant of a
UUIDv7. -/
def checkInstanceId (s : String) : Bool := checkUuidShape 0 s && checkUuidV7 0 s

/-- `CHECK` of the volume columns: the shape of a UUID, of any version. -/
def checkVolumeId (s : String) : Bool := checkUuidShape 0 s

/-- `CHECK` of `workspaces.workspace_id`: a UUIDv7 behind the prefix of the identifiers. -/
def checkWorkspaceId (s : String) : Bool :=
  checkUuidShape 3 s && Sql.substr s 1 3 == "ws_" && checkUuidV7 3 s

/-- `'[a-z0-9]'`: what a name may begin and end with. -/
def boundaryGlob : List Sql.Glob := [.oneOf [('a', 'z'), ('0', '9')]]

/-- `'*[^a-z0-9._-]*'`: the texts with a character that no name has. -/
def notNameGlob : List Sql.Glob :=
  [.star, .noneOf [('a', 'z'), ('0', '9'), ('.', '.'), ('_', '_'), ('-', '-')], .star]

/-- `CHECK` of `workspaces.name`: its length, its characters, its two ends, and no two dots in a
row. -/
def checkName (s : String) : Bool :=
  1 ≤ Sql.length s && Sql.length s ≤ 63 &&
    !Sql.contains s (String.singleton (Char.ofNat 0)) &&
    !Sql.glob s notNameGlob &&
    Sql.glob (Sql.substr s 1 1) boundaryGlob &&
    Sql.glob (Sql.substrLast s) boundaryGlob &&
    !Sql.contains s ".."

/-- The four state names; a column of any other text is refused. -/
def stateNames : List String := ["creating", "ready", "deleting", "error"]

/-- `'E_*'`: what the text of an error code begins with. -/
def errorCodeGlob : List Sql.Glob := [.lit 'E', .lit '_', .star]

/-- The table constraint tying the error code to the state. -/
def checkErrorCode (state : String) (lastErrorCode : Option String) : Bool :=
  (state == "error" && lastErrorCode.any fun code => Sql.glob code errorCodeGlob) ||
    (state != "error" && lastErrorCode.isNone)

/-- Every `CHECK` of `workspaces`, as one condition on the row: a row that violates one of them is
neither inserted nor left behind by an update. -/
def WorkspaceRow.check (r : WorkspaceRow) : Bool :=
  checkWorkspaceId r.workspaceId && checkName r.name &&
    !r.sourcePath.isEmpty && !r.targetPath.isEmpty &&
    checkVolumeId r.sourceVolumeId && checkVolumeId r.targetVolumeId &&
    (r.allowFullCopy == 0 || r.allowFullCopy == 1) && stateNames.contains r.state &&
    decide (0 ≤ r.createdAt) && decide (r.createdAt ≤ r.updatedAt) &&
    checkErrorCode r.state r.lastErrorCode

/-- Every `CHECK` of `materialization_receipts`; `jsonValid` is the SQL function
`json_valid`. -/
def ReceiptRow.check (jsonValid : String → Bool) (r : ReceiptRow) : Bool :=
  decide (0 < r.receiptSchemaVersion) && jsonValid r.receiptJson && decide (0 ≤ r.recordedAt)

/-! ### Statements

A statement is a function of the database that may be refused.  The triggers are definitions
under their own names, and each statement calls those that the schema attaches to it. -/

namespace Database

/-- `SELECT … FROM workspaces WHERE workspace_id = ?1`: at most one row, since the column is the
primary key. -/
def selectWorkspace (db : Database) (workspaceId : String) : Option WorkspaceRow :=
  db.workspaces.find? fun r => r.workspaceId == workspaceId

/-- `SELECT … FROM materialization_receipts WHERE workspace_id = ?1`: at most one row, as for the
workspaces. -/
def selectReceipt (db : Database) (workspaceId : String) : Option ReceiptRow :=
  db.receipts.find? fun r => r.workspaceId == workspaceId

/-- `SELECT … FROM deletion_tombstones WHERE workspace_id = ?1`: at most one row, as for the
workspaces. -/
def selectTombstone (db : Database) (workspaceId : String) : Option TombstoneRow :=
  db.tombstones.find? fun r => r.workspaceId == workspaceId

/-- Trigger `workspaces_insert_guard`: nothing is taken, the state is the first one, the
installation is this one, and the identifier was never used before. -/
def workspacesInsertGuard (db : Database) (new : WorkspaceRow) : Bool :=
  !db.workspaces.any (fun r => r.workspaceId == new.workspaceId || r.name == new.name ||
      r.targetPath == new.targetPath) &&
    !(new.state != "creating" || new.lastErrorCode.isSome) &&
    !(db.installation.instanceId != new.instanceId ||
      new.sourceVolumeId != new.targetVolumeId) &&
    !db.tombstones.any (fun t => t.workspaceId == new.workspaceId)

/-- The primary key and the `UNIQUE` columns of `workspaces`. -/
def workspaceUnique (db : Database) (new : WorkspaceRow) : Bool :=
  db.workspaces.all fun r => r.workspaceId != new.workspaceId && r.name != new.name &&
    r.targetPath != new.targetPath

/-- `INSERT INTO workspaces`: trigger, checks, unique columns and the foreign key, all of which
refuse with the same code. -/
def insertWorkspace (db : Database) (new : WorkspaceRow) : Except SqlError (Unit × Database) :=
  if db.workspacesInsertGuard new && new.check && db.workspaceUnique new &&
      db.installation.instanceId == new.instanceId then
    .ok ((), { db with workspaces := db.workspaces ++ [new] })
  else .error .constraint

/-- Trigger `workspaces_immutable_fields`: the columns that an update must leave as they are. -/
def workspacesImmutableFields (old new : WorkspaceRow) : Bool :=
  old.workspaceId == new.workspaceId && old.instanceId == new.instanceId &&
    old.name == new.name && old.sourcePath == new.sourcePath &&
    old.targetPath == new.targetPath && old.sourceVolumeId == new.sourceVolumeId &&
    old.targetVolumeId == new.targetVolumeId && old.allowFullCopy == new.allowFullCopy &&
    old.createdAt == new.createdAt

/-- Trigger `workspaces_state_transition`: the pairs of states that an update may connect, besides
keeping the state. -/
def workspacesStateTransition (old new : WorkspaceRow) : Bool :=
  old.state == new.state ||
    (old.state == "creating" && ["ready", "error", "deleting"].contains new.state) ||
    (old.state == "ready" && ["deleting", "error"].contains new.state) ||
    (old.state == "deleting" && new.state == "error") ||
    (old.state == "error" && new.state == "deleting")

/-- Trigger `workspaces_timestamp_monotonic`: the time of the last change never goes back. -/
def workspacesTimestampMonotonic (old new : WorkspaceRow) : Bool :=
  decide (old.updatedAt ≤ new.updatedAt)

/-- Trigger `workspaces_ready_requires_receipt`: a row becomes ready only behind its receipt. -/
def workspacesReadyRequiresReceipt (db : Database) (old new : WorkspaceRow) : Bool :=
  !(old.state != "ready" && new.state == "ready" &&
    !db.receipts.any fun r => r.workspaceId == new.workspaceId)

/-- What SQLite checks for one row of an `UPDATE workspaces SET state = …`. -/
def checkUpdate (db : Database) (old new : WorkspaceRow) : Bool :=
  workspacesImmutableFields old new && workspacesStateTransition old new &&
    workspacesTimestampMonotonic old new && db.workspacesReadyRequiresReceipt old new &&
    new.check

/-- `UPDATE workspaces SET … WHERE workspace_id = ?id AND state = ?expected`; the
result is the number of rows changed. -/
def updateWorkspace (db : Database) (workspaceId expected : String)
    (assign : WorkspaceRow → WorkspaceRow) : Except SqlError (ℕ × Database) :=
  (Sql.updateWhere db.workspaces
    (fun r => r.workspaceId == workspaceId && r.state == expected) assign db.checkUpdate
    SqlError.constraint).map fun p => (p.1, { db with workspaces := p.2 })

/-- Triggers `receipts_insert_once` and `receipts_insert_only_creating`: one receipt for each
workspace, written while it is being created. -/
def receiptsInsertGuard (db : Database) (new : ReceiptRow) : Bool :=
  !db.receipts.any (fun r => r.workspaceId == new.workspaceId) &&
    (db.selectWorkspace new.workspaceId).any fun w => w.state == "creating"

/-- `INSERT INTO materialization_receipts`: whether a text is JSON is left to the parameter
`jsonValid`, which stands for the function of SQLite. -/
def insertReceipt (jsonValid : String → Bool) (db : Database) (new : ReceiptRow) :
    Except SqlError (Unit × Database) :=
  if db.receiptsInsertGuard new && new.check jsonValid &&
      db.workspaces.any (fun w => w.workspaceId == new.workspaceId) then
    .ok ((), { db with receipts := db.receipts ++ [new] })
  else .error .constraint

/-- Triggers `tombstones_insert_once` and `tombstones_insert_only_deleting`: a workspace of this
installation that is being deleted. -/
def tombstonesInsertGuard (db : Database) (new : TombstoneRow) : Bool :=
  !db.tombstones.any (fun t => t.workspaceId == new.workspaceId) &&
    db.workspaces.any fun w => w.workspaceId == new.workspaceId &&
      w.instanceId == new.instanceId && w.state == "deleting"

/-- `INSERT INTO deletion_tombstones`: its guard, its one check, and the foreign key on the
installation. -/
def insertTombstone (db : Database) (new : TombstoneRow) : Except SqlError (Unit × Database) :=
  if db.tombstonesInsertGuard new && decide (0 ≤ new.deletedAt) &&
      db.installation.instanceId == new.instanceId then
    .ok ((), { db with tombstones := db.tombstones ++ [new] })
  else .error .constraint

/-- Trigger `workspaces_delete_requires_tombstone`: a row is deleted only behind its tombstone. -/
def workspacesDeleteRequiresTombstone (db : Database) (old : WorkspaceRow) : Bool :=
  db.tombstones.any fun t => t.workspaceId == old.workspaceId && t.instanceId == old.instanceId

/-- Trigger `receipts_no_direct_delete`, on the workspaces that are left: a receipt goes only with
its workspace. -/
def receiptsNoDirectDelete (workspaces : List WorkspaceRow) (old : ReceiptRow) : Bool :=
  !workspaces.any fun w => w.workspaceId == old.workspaceId

/-- The condition of `DELETE FROM workspaces WHERE workspace_id = ?1 AND state = 'deleting'`. -/
def isDeleting (workspaceId : String) (r : WorkspaceRow) : Bool :=
  r.workspaceId == workspaceId && r.state == "deleting"

/-- `DELETE FROM workspaces WHERE workspace_id = ?1 AND state = 'deleting'`, with
the cascade to the receipts of the deleted rows. -/
def deleteWorkspace (db : Database) (workspaceId : String) : Except SqlError (ℕ × Database) := do
  let (deleted, workspaces) ← Sql.deleteWhere db.workspaces (isDeleting workspaceId)
    db.workspacesDeleteRequiresTombstone SqlError.constraint
  let (_, receipts) ← Sql.deleteWhere db.receipts
    (fun r => db.workspaces.any fun w => isDeleting workspaceId w && w.workspaceId == r.workspaceId)
    (receiptsNoDirectDelete workspaces) SqlError.constraint
  pure (deleted, { db with workspaces, receipts })

end Database
end Metadata
end ThinWorkspace
