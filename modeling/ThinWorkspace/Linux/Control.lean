/-
# The control root

Source: the system calls of `crates/thinws-adapter-linux/src/publication.rs` and
`control.rs`, the parts of `lock.rs` and `layout.rs` they use, and the database
accesses of `MetadataStoreFactory` in `crates/thinws-metadata-sqlite/src/lib.rs`.

A `ControlRoot` holds the entries of the control directory by name; a missing
directory and an empty one are one state.  A `ControlCall` is one system call, one
access to the database, or one of the checks of `lock.rs` and `layout.rs`, which only
read.  A call that succeeds has its `effect`; a call that fails has had its effect, or
a part of what it wrote, or none.
-/

import ThinWorkspace.Lib.Program
import ThinWorkspace.Linux.Document

namespace ThinWorkspace
namespace Linux

open ThinWorkspace.Core Lib Ports

/-! ### Entries

The control directory as a map from names to entries: files with their bytes, directories,
and the directory of the metadata with its database. -/

/-- `rustix::io::Errno`, as far as the source tells errors apart. -/
inductive Errno where
  | exist | noent
  | other (code : ℕ)
deriving DecidableEq

/-- `st_mode & S_IFMT`, as far as a check of the control root tells the kinds apart. -/
inductive FileKind where
  | regular | directory | other
deriving DecidableEq

/-- The fields of `rustix::fs::Stat` that the control-root checks read. -/
structure Stat where
  identity : FileIdentity
  kind : FileKind
  mode : UInt32
  uid : UInt32
  nlink : UInt64
deriving DecidableEq

/-- `lock.rs::Identity`: device and inode with the moment of birth, so that a directory made anew
under the same inode is another one. -/
structure DirectoryIdentity where
  file : FileIdentity
  birthSeconds : ℤ
  birthNanoseconds : UInt32
deriving DecidableEq

/-- `PrivateDirectory`: a held directory and the path it was opened under. -/
structure PrivateDirectory where
  path : List UInt8
  identity : DirectoryIdentity
deriving DecidableEq

/-- What the pragmas and the catalog of the database file show; an installation row is
in a table. -/
structure Schema where
  applicationId : ℤ
  userVersion : ℤ
  userTableCount : ℕ
  installation : Option InstallationRecord
  row_in_table : userTableCount = 0 → installation = none

/-- A database file nothing was written to: what `create_database_file` leaves. -/
def Schema.empty : Schema := ⟨0, 0, 0, none, fun _ => rfl⟩

/-- `APPLICATION_ID`: the number by which the program knows its own databases. -/
def sqliteApplicationId : ℤ := 1414027091

/-- `SCHEMA_VERSION`: the one version of the schema that is written and accepted. -/
def sqliteSchemaVersion : ℤ := 2

/-- Where there is no table there is no installation row. -/
theorem installed_row_in_table {installation : InstallationRecord} (h : 4 = 0) :
    some installation = none := absurd h (by decide)

/-- What `apply_v2` leaves: the four tables of the schema and the installation row. -/
def Schema.installed (installation : InstallationRecord) : Schema :=
  ⟨sqliteApplicationId, sqliteSchemaVersion, 4, some installation, installed_row_in_table⟩

/-- An entry of the control directory; of a directory, only `state.db` is looked at. -/
inductive Entry where
  | file (stat : Stat) (bytes : List UInt8)
  | directory (stat : Stat) (database : Option Schema)
  | other (stat : Stat)

/-- The `statat` of an entry, whatever its kind. -/
def Entry.stat : Entry → Stat
  | .file stat _ | .directory stat _ | .other stat => stat

/-- The entries of the control directory, by name; a name without an entry is missing. -/
abbrev ControlRoot := String → Option Entry

/-- `.thinws-control.toml`: the marker, which is initializing or ready. -/
def markerName : String := ".thinws-control.toml"

/-- `config.toml`: the config, which is published last. -/
def configName : String := "config.toml"

/-- `metadata`: the directory of the database. -/
def metadataName : String := "metadata"

/-- `logs`: the directory of the removal log. -/
def logsName : String := "logs"

/-- `lifecycle.lock`: the only entry that a control root may have before an installation begins. -/
def lockName : String := "lifecycle.lock"

/-- `metadata/state.db`: the database in the directory of the metadata, if both are there. -/
def ControlRoot.database (root : ControlRoot) : Option Schema :=
  match root metadataName with
  | some (.directory _ database) => database
  | _ => none

/-- The bytes of a named file; anything but a file has none. -/
def ControlRoot.bytes (root : ControlRoot) (name : String) : Option (List UInt8) :=
  match root name with
  | some (.file _ bytes) => some bytes
  | _ => none

/-! ### Calls

The calls of the adapters on the control root.  A held file is named by the name it was
created under, so a rename moves what the handle means. -/

/-- `LinuxLockGuard`: whether it is the bootstrap lock, and the directory and the file it was taken
in. -/
structure LockGuard where
  bootstrap : Bool
  parent : PrivateDirectory
  identity : FileIdentity
deriving DecidableEq

/-- `LinuxDataRootLayout`, as far as its checks are not calls. -/
structure LayoutEvidence where
  metadata : PrivateDirectory
  logs : PrivateDirectory
  database : FileIdentity
deriving DecidableEq

/-- A call of the outside world.  A held file is named by the name it was created
under. -/
inductive ControlCall where
  | newUuid
  | preparePrivateDirectory
  | openPrivateDirectoryOptional (path : List UInt8)
  | acquireBootstrap
  | lockRevalidate (lock : LockGuard)
  | controlFilesystemIdentity (directory : PrivateDirectory)
  | readPrivateDocument (directory : PrivateDirectory) (name : String)
  | readDirectory
  | statat (name : String)
  | fstat (name : String)
  | duplicate
  | create (name : String)
  | write (name : String) (bytes : List UInt8)
  | sync (name : String)
  | syncDirectory
  | renameNoreplace (source target : String)
  | renameExchange (source target : String)
  | unlink (name : String)
  | mkdir (name : String)
  | rmdir (name : String)
  | createDatabase
  | validateLayout (identity : InstallationIdentity)
  | layoutRevalidate
  | openDatabase
  | readApplicationId
  | readUserVersion
  | readUserTableCount
  | configureConnection
  | validateSchemaCatalog
  | migrate (installation : InstallationRecord)
  | readInstallation
  | readSnapshotRows
deriving DecidableEq

/-- What a call returns when it succeeds; most calls return nothing. -/
@[reducible] def ControlCall.Value : ControlCall → Type
  | .newUuid => UuidV7
  | .preparePrivateDirectory => PrivateDirectory
  | .openPrivateDirectoryOptional _ => Option PrivateDirectory
  | .acquireBootstrap => LockGuard
  | .controlFilesystemIdentity _ => VolumeId × UInt64
  | .readPrivateDocument _ _ => Option (List UInt8)
  | .readDirectory => List String
  | .statat _ | .fstat _ => Stat
  | .validateLayout _ => LayoutEvidence
  | .readApplicationId | .readUserVersion => ℤ
  | .readUserTableCount => ℕ
  | .readInstallation => InstallationRecord
  | _ => Unit

/-- What a call fails with: the errors of other modules, or an `Errno`. -/
@[reducible] def ControlCall.Error : ControlCall → Type
  | .newUuid => Empty
  | .preparePrivateDirectory | .openPrivateDirectoryOptional _ | .acquireBootstrap
  | .lockRevalidate _ | .controlFilesystemIdentity _ | .readPrivateDocument _ _
  | .validateLayout _ | .layoutRevalidate | .openDatabase | .readApplicationId
  | .readUserVersion | .readUserTableCount | .configureConnection | .validateSchemaCatalog
  | .migrate _ | .readInstallation | .readSnapshotRows => PortError
  | _ => Errno

/-- What a call returns: its value, or a failure of the kind that this call has. -/
@[reducible] def ControlCall.Result (c : ControlCall) : Type := Except c.Error c.Value

/-- A use of the control root, or a part of one. -/
abbrev Control (α : Type) := Program ControlCall ControlCall.Result PortError α

/-! ### Effects

What a call that succeeds does to the directory, and what a write that fails may have done.
Reading calls leave the directory, and may return anything that the environment allows. -/

/-- The directory with one entry set, or removed where the entry is none. -/
def ControlRoot.set (root : ControlRoot) (name : String) (entry : Option Entry) : ControlRoot :=
  fun other => if other = name then entry else root other

/-- An entry that is set is there. -/
@[simp] theorem ControlRoot.set_same (root : ControlRoot) (name : String) (entry : Option Entry) :
    root.set name entry name = entry := if_pos rfl

/-- Setting one entry leaves the others, which is what most steps of an initialization rely on. -/
theorem ControlRoot.set_other (root : ControlRoot) {name other : String} (entry : Option Entry)
    (h : other ≠ name) : root.set name entry other = root other := if_neg h

/-- The `MAX_DOCUMENT_BYTES + 1` bytes of a document that are read, so that one that is too long
shows it. -/
def readLimit : ℕ := maxDocumentBytes + 1

/-- What a call that succeeds does to the directory, and what it returns.  A check
may succeed with any value. -/
def ControlCall.effect (root : ControlRoot) :
    (c : ControlCall) → c.Value → ControlRoot → Prop
  | .acquireBootstrap, _, root' =>
    (root lockName = none ∨ ∃ bytes, root.bytes lockName = some bytes) ∧
      ∃ stat bytes, root' = root.set lockName (some (.file stat bytes))
  | .readPrivateDocument _ name, found, root' => root' = root ∧
      match found with
      | none => root name = none
      | some bytes => ∃ stored, root.bytes name = some stored ∧ bytes = stored.take readLimit
  | .readDirectory, names, root' => root' = root ∧ ∀ name, name ∈ names ↔ root name ≠ none
  | .create name, _, root' => root name = none ∧
      ∃ stat, root' = root.set name (some (.file stat []))
  | .write name bytes, _, root' => ∃ stat before, root name = some (.file stat before) ∧
      root' = root.set name (some (.file stat bytes))
  | .renameNoreplace source target, _, root' => root target = none ∧
      ∃ entry, root source = some entry ∧ root' = (root.set source none).set target (some entry)
  | .renameExchange source target, _, root' => ∃ a b, root source = some a ∧ root target = some b ∧
      root' = (root.set source (some b)).set target (some a)
  | .unlink name, _, root' => (∃ entry, root name = some entry ∧ entry.stat.kind ≠ .directory) ∧
      root' = root.set name none
  | .mkdir name, _, root' => root name = none ∧
      ∃ stat, root' = root.set name (some (.directory stat none))
  | .rmdir name, _, root' => (∃ stat, root name = some (.directory stat none)) ∧
      root' = root.set name none
  | .createDatabase, _, root' => ∃ stat, root metadataName = some (.directory stat none) ∧
      root' = root.set metadataName (some (.directory stat (some .empty)))
  | .readApplicationId, value, root' => root' = root ∧
      ∃ schema, root.database = some schema ∧ value = schema.applicationId
  | .readUserVersion, value, root' => root' = root ∧
      ∃ schema, root.database = some schema ∧ value = schema.userVersion
  | .readUserTableCount, value, root' => root' = root ∧
      ∃ schema, root.database = some schema ∧ value = schema.userTableCount
  | .migrate installation, _, root' => ∃ stat schema,
      root metadataName = some (.directory stat (some schema)) ∧ schema.userTableCount = 0 ∧
      root' = root.set metadataName (some (.directory stat (some (.installed installation))))
  | .readInstallation, value, root' => root' = root ∧
      ∃ schema, root.database = some schema ∧ schema.installation = some value
  | _, _, root' => root' = root

/-- A write that failed part of the way: the file holds a beginning of what should have been
written. -/
def ControlCall.partialEffect (root : ControlRoot) : ControlCall → ControlRoot → Prop
  | .write name bytes, root' => ∃ stat before part, root name = some (.file stat before) ∧
      part <+: bytes ∧ root' = root.set name (some (.file stat part))
  | _, _ => False

/-- The world of the control root: nobody else writes to it. -/
def controlEnvironment : Environment ControlCall ControlCall.Result ControlRoot where
  step root c r root' :=
    match r with
    | .ok value => c.effect root value root'
    | .error _ => root' = root ∨ (∃ value, c.effect root value root') ∨ c.partialEffect root root'

end Linux
end ThinWorkspace
