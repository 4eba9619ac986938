/-
# Ownership documents

Source: `crates/thinws-adapter-linux/src/document.rs` and
`crates/thinws-adapter-macos/src/document.rs`, `encode_workspace_ownership` and
`decode_workspace_ownership`.  The macOS document lacks the mount of the Linux one and has
another version; what the two share is here under the names of the source.

A decoded ownership is valid, and a valid one is read back from its own fields:
`decodeOwnership_ok_iff`.
-/

import ThinWorkspace.Lib.Except
import ThinWorkspace.Linux.Siblings

namespace ThinWorkspace
namespace Linux

open ThinWorkspace.Core Lib Lib.Fallible Ports

/-! ### Ownership

What an ownership says, and when it is valid: the identities are possible ones, and the
paths are the siblings that the target and the workspace determine. -/

/-- `HistoricalDirectoryIdentity`: the inode and the moment of birth of a directory, as they are
written down to be compared later. -/
structure HistoricalDirectoryIdentity where
  inode : UInt64
  birthSeconds : Int64
  birthNanoseconds : UInt32
deriving DecidableEq

/-- `OperationDirectoryOwnership`: one of the directories beside the target, by its path and its
identity. -/
structure OperationDirectoryOwnership where
  path : AbsolutePath
  identity : HistoricalDirectoryIdentity
deriving DecidableEq

/-- `WorkspaceOwnership` without the mount: what a workspace consists of, and whose it is. -/
structure Ownership where
  instanceId : InstanceId
  workspaceId : WorkspaceId
  volumeId : VolumeId
  targetPath : AbsolutePath
  parent : HistoricalDirectoryIdentity
  target : HistoricalDirectoryIdentity
  staging : OperationDirectoryOwnership
  trash : OperationDirectoryOwnership
  isolatedPath : Option AbsolutePath
deriving DecidableEq

/-- An inode, a time not before the epoch, and a part of a second. -/
structure HistoricalDirectoryIdentity.Valid (identity : HistoricalDirectoryIdentity) : Prop where
  inode : identity.inode ≠ 0
  birthSeconds : 0 ≤ identity.birthSeconds.toInt
  birthNanoseconds : identity.birthNanoseconds.toNat < 1000000000

/-- The path is the sibling of the target that is derived with this name. -/
def IsSibling (target : AbsolutePath) (id : WorkspaceId) (kind : String) (path : AbsolutePath) :
    Prop :=
  (parentPathBytes target).map (siblingPathBytes · (kind ++ id.toText)) = some path.asBytes

/-- A target below the root, four identities of directories, and the derived siblings. -/
structure Ownership.Valid (ownership : Ownership) : Prop where
  target_ne_root : ownership.targetPath.asBytes ≠ [slash]
  parent : ownership.parent.Valid
  target : ownership.target.Valid
  staging : ownership.staging.identity.Valid
  trash : ownership.trash.identity.Valid
  staging_path : IsSibling ownership.targetPath ownership.workspaceId ".thinws-staging-"
    ownership.staging.path
  trash_path : IsSibling ownership.targetPath ownership.workspaceId ".thinws-trash-"
    ownership.trash.path
  isolated_path : ∀ path ∈ ownership.isolatedPath,
    IsSibling ownership.targetPath ownership.workspaceId ".thinws-remove-" path

/-! ### Its fields

The fields that the documents of both platforms share, with the mount left out: as texts and
numbers, and as entries of a table whose keys are all different. -/

/-- `OwnershipDocument` without the mount; the identities are three fields each. -/
structure OwnershipFields where
  schemaVersion : UInt32
  instanceId : String
  workspaceId : String
  volumeId : String
  targetPathHex : String
  targetParent : HistoricalDirectoryIdentity
  target : HistoricalDirectoryIdentity
  stagingPathHex : String
  staging : HistoricalDirectoryIdentity
  trashPathHex : String
  trash : HistoricalDirectoryIdentity
  isolatedPathHex : Option String

/-- What `encode_workspace_ownership` fills in: identifiers and paths in their textual form,
identities as numbers. -/
def ownershipFields (version : UInt32) (ownership : Ownership) : OwnershipFields where
  schemaVersion := version
  instanceId := ownership.instanceId.toText
  workspaceId := ownership.workspaceId.toText
  volumeId := ownership.volumeId.toText
  targetPathHex := encodeHex ownership.targetPath.asBytes
  targetParent := ownership.parent
  target := ownership.target
  stagingPathHex := encodeHex ownership.staging.path.asBytes
  staging := ownership.staging.identity
  trashPathHex := encodeHex ownership.trash.path.asBytes
  trash := ownership.trash.identity
  isolatedPathHex := ownership.isolatedPath.map fun path => encodeHex path.asBytes

/-- The three fields of an identity, in the order of the document. -/
def identityFields (inode birthSeconds birthNanoseconds : String)
    (identity : HistoricalDirectoryIdentity) : TomlTable :=
  [(inode, .int identity.inode.toNat), (birthSeconds, .int identity.birthSeconds.toInt),
    (birthNanoseconds, .int identity.birthNanoseconds.toNat)]

/-- The fields before the mount, which stand first in the document. -/
def OwnershipFields.idTable (document : OwnershipFields) : TomlTable :=
  [("schema_version", .int document.schemaVersion.toNat),
    ("instance_id", .str document.instanceId), ("workspace_id", .str document.workspaceId),
    ("volume_id", .str document.volumeId)]

/-- The fields after the mount; a missing isolated path is skipped. -/
def OwnershipFields.pathTable (document : OwnershipFields) : TomlTable :=
  ("target_path_hex", .str document.targetPathHex) ::
    identityFields "target_parent_inode" "target_parent_birth_seconds"
      "target_parent_birth_nanoseconds" document.targetParent ++
    identityFields "target_inode" "target_birth_seconds" "target_birth_nanoseconds"
      document.target ++
    ("staging_path_hex", .str document.stagingPathHex) ::
    identityFields "staging_inode" "staging_birth_seconds" "staging_birth_nanoseconds"
      document.staging ++
    ("trash_path_hex", .str document.trashPathHex) ::
    identityFields "trash_inode" "trash_birth_seconds" "trash_birth_nanoseconds"
      document.trash ++
    document.isolatedPathHex.toList.map fun text => ("isolated_path_hex", .str text)

/-- The keys before the mount, against which an unknown key is recognized. -/
def idKeys : List String := ["schema_version", "instance_id", "workspace_id", "volume_id"]

/-- The keys after the mount that are always there. -/
def pathKeys : List String :=
  ["target_path_hex", "target_parent_inode", "target_parent_birth_seconds",
    "target_parent_birth_nanoseconds", "target_inode", "target_birth_seconds",
    "target_birth_nanoseconds", "staging_path_hex", "staging_inode", "staging_birth_seconds",
    "staging_birth_nanoseconds", "trash_path_hex", "trash_inode", "trash_birth_seconds",
    "trash_birth_nanoseconds"]

/-- The keys of a document with these keys for its mount. -/
def ownershipKeys (mountKeys : List String) : List String :=
  idKeys ++ mountKeys ++ pathKeys ++ ["isolated_path_hex"]

/-- The three fields of an identity: all of them are there, each in its own width. -/
def identity? (table : TomlTable) (inode birthSeconds birthNanoseconds : String) :
    Option HistoricalDirectoryIdentity := do
  let inode ← table.u64? inode
  let birthSeconds ← table.i64? birthSeconds
  let birthNanoseconds ← table.u32? birthNanoseconds
  pure ⟨inode, birthSeconds, birthNanoseconds⟩

/-- The fields that both documents have; only the path of the isolated directory may be missing. -/
def ownershipFields? (table : TomlTable) : Option OwnershipFields := do
  let schemaVersion ← table.u32? "schema_version"
  let instanceId ← table.str? "instance_id"
  let workspaceId ← table.str? "workspace_id"
  let volumeId ← table.str? "volume_id"
  let targetPathHex ← table.str? "target_path_hex"
  let targetParent ← identity? table "target_parent_inode" "target_parent_birth_seconds"
    "target_parent_birth_nanoseconds"
  let target ← identity? table "target_inode" "target_birth_seconds" "target_birth_nanoseconds"
  let stagingPathHex ← table.str? "staging_path_hex"
  let staging ← identity? table "staging_inode" "staging_birth_seconds"
    "staging_birth_nanoseconds"
  let trashPathHex ← table.str? "trash_path_hex"
  let trash ← identity? table "trash_inode" "trash_birth_seconds" "trash_birth_nanoseconds"
  let isolatedPathHex ← table.optionalStr? "isolated_path_hex"
  pure ⟨schemaVersion, instanceId, workspaceId, volumeId, targetPathHex, targetParent, target,
    stagingPathHex, staging, trashPathHex, trash, isolatedPathHex⟩

section Table

variable {document : OwnershipFields} {table : TomlTable}

/-- An identity is read from a table that has its three fields, each key once. -/
theorem identity?_of_subset {inode birthSeconds birthNanoseconds : String}
    {identity : HistoricalDirectoryIdentity} (hkeys : (table.map Prod.fst).Nodup)
    (hsub : ∀ entry ∈ identityFields inode birthSeconds birthNanoseconds identity,
      entry ∈ table) :
    identity? table inode birthSeconds birthNanoseconds = some identity := by
  simp only [identityFields, List.forall_mem_cons] at hsub
  obtain ⟨hinode, hseconds, hnanoseconds, -⟩ := hsub
  rw [identity?, TomlTable.u64?_of_get? (TomlTable.get?_of_mem hkeys hinode),
    TomlTable.i64?_of_get? (TomlTable.get?_of_mem hkeys hseconds),
    TomlTable.u32?_of_get? (TomlTable.get?_of_mem hkeys hnanoseconds)]
  rfl

/-- The fields are found in any table that has them, each once. -/
theorem ownershipFields?_of_subset (hkeys : (table.map Prod.fst).Nodup)
    (hid : ∀ entry ∈ document.idTable, entry ∈ table)
    (hpath : ∀ entry ∈ document.pathTable, entry ∈ table)
    (hisolated : document.isolatedPathHex = none → "isolated_path_hex" ∉ table.map Prod.fst) :
    ownershipFields? table = some document := by
  simp only [OwnershipFields.idTable, List.forall_mem_cons] at hid
  obtain ⟨hversion, hinstance, hworkspace, hvolume, -⟩ := hid
  simp only [OwnershipFields.pathTable, List.cons_append, List.forall_mem_cons,
    List.forall_mem_append] at hpath
  obtain ⟨htarget, ⟨⟨⟨hparentId, htargetId⟩, hstaging, hstagingId⟩, htrash, htrashId⟩, hlast⟩ :=
    hpath
  have hoptional : table.optionalStr? "isolated_path_hex" = some document.isolatedPathHex := by
    unfold TomlTable.optionalStr?
    cases hhex : document.isolatedPathHex with
    | none => rw [TomlTable.get?_eq_none (hisolated hhex)]
    | some text =>
      rw [hhex] at hlast
      rw [TomlTable.get?_of_mem hkeys (hlast _ (List.mem_singleton.mpr rfl))]
  rw [ownershipFields?, TomlTable.u32?_of_get? (TomlTable.get?_of_mem hkeys hversion),
    TomlTable.str?_of_get? (TomlTable.get?_of_mem hkeys hinstance),
    TomlTable.str?_of_get? (TomlTable.get?_of_mem hkeys hworkspace),
    TomlTable.str?_of_get? (TomlTable.get?_of_mem hkeys hvolume),
    TomlTable.str?_of_get? (TomlTable.get?_of_mem hkeys htarget),
    TomlTable.str?_of_get? (TomlTable.get?_of_mem hkeys hstaging),
    TomlTable.str?_of_get? (TomlTable.get?_of_mem hkeys htrash),
    identity?_of_subset hkeys hparentId, identity?_of_subset hkeys htargetId,
    identity?_of_subset hkeys hstagingId, identity?_of_subset hkeys htrashId, hoptional]
  rfl

/-- The keys of the first part of a document. -/
theorem map_fst_idTable : document.idTable.map Prod.fst = idKeys := rfl

/-- The keys of the last part, the optional one included if it is there. -/
theorem map_fst_pathTable : document.pathTable.map Prod.fst =
    pathKeys ++ document.isolatedPathHex.toList.map fun _ => "isolated_path_hex" := by
  obtain ⟨_, _, _, _, _, _, _, _, _, _, _, isolated⟩ := document
  cases isolated <;> rfl

/-- The keys of a document are among the known ones, each there once. -/
theorem sublist_ownershipKeys (document : OwnershipFields) (mount : TomlTable) :
    ((document.idTable ++ mount ++ document.pathTable).map Prod.fst).Sublist
      (ownershipKeys (mount.map Prod.fst)) := by
  have hisolated : (document.isolatedPathHex.toList.map fun _ => "isolated_path_hex").Sublist
      ["isolated_path_hex"] := by
    cases document.isolatedPathHex with
    | none => exact List.nil_sublist _
    | some text => exact List.Sublist.refl _
  rw [List.map_append, List.map_append, map_fst_idTable, map_fst_pathTable, ownershipKeys,
    ← List.append_assoc]
  exact (List.Sublist.refl _).append hisolated

/-- A printed table has the fields of its document, and no others. -/
theorem ownershipFields?_table (document : OwnershipFields) {mount : TomlTable}
    (hkeys : (ownershipKeys (mount.map Prod.fst)).Nodup) :
    (document.idTable ++ mount ++ document.pathTable).onlyKeys
        (ownershipKeys (mount.map Prod.fst)) = true ∧
      ((document.idTable ++ mount ++ document.pathTable).map Prod.fst).Nodup ∧
      ownershipFields? (document.idTable ++ mount ++ document.pathTable) = some document := by
  have hsub := sublist_ownershipKeys document mount
  have hnodup := hsub.nodup hkeys
  refine ⟨?_, hnodup, ownershipFields?_of_subset hnodup (fun entry hentry => ?_)
    (fun entry hentry => ?_) fun hnone => ?_⟩
  · refine List.all_eq_true.mpr fun entry hentry => ?_
    have hmem : entry.1 ∈ ownershipKeys (mount.map Prod.fst) :=
      hsub.subset (List.mem_map_of_mem hentry)
    simpa using hmem
  · exact List.mem_append_left _ (List.mem_append_left _ hentry)
  · exact List.mem_append_right _ hentry
  · rw [List.map_append, List.map_append, map_fst_idTable, map_fst_pathTable, hnone,
      Option.toList_none, List.map_nil, List.append_nil]
    rw [ownershipKeys, List.nodup_append] at hkeys
    intro hmem
    exact hkeys.2.2 _ hmem _ (List.mem_singleton.mpr rfl) rfl

end Table

/-! ### Decoding

The checks of the decoder are the conditions of validity, one by one; and a valid ownership
is read back from its fields. -/

/-- The check of one identity: an inode that exists, and a moment that is one. -/
def invalidIdentity (identity : HistoricalDirectoryIdentity) : Bool :=
  identity.inode == 0 || decide (identity.birthSeconds.toInt < 0) ||
    decide (1000000000 ≤ identity.birthNanoseconds.toNat)

/-- `decode_path`: the hexadecimal text of a path that is valid. -/
def decodePath (hex : String) : Except DocumentError AbsolutePath := do
  let bytes ← decodeHex hex
  (AbsolutePath.tryFromBytes bytes).mapError fun _ => DocumentError.invalidIdentity

/-- `decode_path` of a path that may be missing; one that is present has to be valid. -/
def decodeOptionalPath : Option String → Except DocumentError (Option AbsolutePath)
  | none => .ok none
  | some hex => (decodePath hex).map some

/-- The check of the siblings that a document always has. -/
def otherSiblings (targetParent : List UInt8) (id : WorkspaceId) (staging trash : AbsolutePath) :
    Bool :=
  staging.asBytes != siblingPathBytes targetParent (".thinws-staging-" ++ id.toText) ||
    trash.asBytes != siblingPathBytes targetParent (".thinws-trash-" ++ id.toText)

/-- The check of the isolated path: if there is one, it is the sibling whose name the workspace
determines. -/
def otherIsolated (targetParent : List UInt8) (id : WorkspaceId) (isolated : Option AbsolutePath) :
    Bool :=
  isolated.any fun path =>
    path.asBytes != siblingPathBytes targetParent (".thinws-remove-" ++ id.toText)

/-- `decode_workspace_ownership`, behind the checks of the version and the mount. -/
def decodeOwnership (document : OwnershipFields) : Except DocumentError Ownership := do
  refuseIf ([document.targetParent, document.target, document.staging, document.trash].any
    invalidIdentity) .invalidIdentity
  let workspaceId ← (WorkspaceId.fromText document.workspaceId).mapError fun _ =>
    DocumentError.invalidIdentity
  let targetPath ← decodePath document.targetPathHex
  let targetParent ← (parentPathBytes targetPath).elim (.error DocumentError.invalidIdentity) .ok
  let staging ← decodePath document.stagingPathHex
  let trash ← decodePath document.trashPathHex
  refuseIf (otherSiblings targetParent workspaceId staging trash) .invalidIdentity
  let isolatedPath ← decodeOptionalPath document.isolatedPathHex
  refuseIf (otherIsolated targetParent workspaceId isolatedPath) .invalidIdentity
  let instanceId ← (UuidV7.fromText document.instanceId).mapError fun _ =>
    DocumentError.invalidIdentity
  let volumeId ← (VolumeId.fromText document.volumeId).elim
    (.error DocumentError.invalidIdentity) .ok
  pure ⟨instanceId, workspaceId, volumeId, targetPath, document.targetParent, document.target,
    ⟨staging, document.staging⟩, ⟨trash, document.trash⟩, isolatedPath⟩

section Decode

variable {document : OwnershipFields} {ownership : Ownership}

/-- An identity that is not refused is valid: the check of the code is the property of the
specification. -/
theorem valid_of_not_invalid {identity : HistoricalDirectoryIdentity} :
    ¬invalidIdentity identity = true ↔ identity.Valid := by
  simp only [invalidIdentity, Bool.or_eq_true, beq_iff_eq, decide_eq_true_eq, not_or]
  constructor
  · rintro ⟨⟨hinode, hseconds⟩, hnanoseconds⟩
    exact ⟨hinode, by omega, by omega⟩
  · rintro ⟨hinode, hseconds, hnanoseconds⟩
    exact ⟨⟨hinode, by omega⟩, by omega⟩

/-- Where none of the four identities is refused, all are valid. -/
theorem not_any_invalidIdentity {parent target staging trash : HistoricalDirectoryIdentity} :
    ¬([parent, target, staging, trash].any invalidIdentity) = true ↔
      parent.Valid ∧ target.Valid ∧ staging.Valid ∧ trash.Valid := by
  simp only [List.any_cons, List.any_nil, Bool.or_false, Bool.or_eq_true, not_or,
    valid_of_not_invalid]

/-- A target below the root has a parent, whose bytes are found. -/
theorem parentPathBytes_eq_some {target : AbsolutePath} {bytes : List UInt8} :
    parentPathBytes target = some bytes ↔
      target.asBytes ≠ [slash] ∧ bytes = target.parent.asBytes := by
  by_cases hroot : target.asBytes = [slash]
  · rw [parentPathBytes, if_pos hroot]
    exact iff_of_false (fun h => by cases h) fun h => h.1 hroot
  · rw [parentPathBytes_eq hroot, Option.some.injEq, and_iff_right hroot]
    exact eq_comm

/-- A sibling is the path beside the target with the kind and the workspace in its name. -/
theorem isSibling_iff {target path : AbsolutePath} {id : WorkspaceId} {kind : String}
    (h : target.asBytes ≠ [slash]) :
    IsSibling target id kind path ↔
      path.asBytes = siblingPathBytes target.parent.asBytes (kind ++ id.toText) := by
  rw [IsSibling, parentPathBytes_eq h, Option.map_some, Option.some.injEq]
  exact eq_comm

/-- Operation directories that are not refused are the siblings of the target. -/
theorem not_otherSiblings {target staging trash : AbsolutePath} {id : WorkspaceId}
    (h : target.asBytes ≠ [slash]) :
    ¬otherSiblings target.parent.asBytes id staging trash = true ↔
      IsSibling target id ".thinws-staging-" staging ∧
        IsSibling target id ".thinws-trash-" trash := by
  rw [isSibling_iff h, isSibling_iff h]
  simp [otherSiblings]

/-- An isolated path that is not refused is the sibling of the target, if there is one. -/
theorem not_otherIsolated {target : AbsolutePath} {isolated : Option AbsolutePath}
    {id : WorkspaceId} (h : target.asBytes ≠ [slash]) :
    ¬otherIsolated target.parent.asBytes id isolated = true ↔
      ∀ path ∈ isolated, IsSibling target id ".thinws-remove-" path := by
  cases isolated with
  | none => simp [otherIsolated]
  | some path => simp [otherIsolated, isSibling_iff h]

/-- A value that has to be there is the one that is returned. -/
theorem elim_ok {α : Type} {value : Option α} {a : α} :
    value.elim (.error DocumentError.invalidIdentity) .ok = Except.ok a ↔ value = some a := by
  cases value with
  | none => exact iff_of_false (fun h => by cases h) fun h => by cases h
  | some b =>
    constructor
    · rintro ⟨⟩
      rfl
    · rintro ⟨⟩
      rfl

/-- **What is decoded is valid.**  Every check of the decoder is one of the conditions of a valid
ownership, and none is missing. -/
theorem valid_of_decodeOwnership (h : decodeOwnership document = .ok ownership) :
    ownership.Valid := by
  obtain ⟨hidentities, h⟩ := refuseIf_bind_ok h
  obtain ⟨workspaceId, _, h⟩ := bind_ok h
  obtain ⟨targetPath, _, h⟩ := bind_ok h
  obtain ⟨targetParent, hparent, h⟩ := bind_ok h
  obtain ⟨staging, _, h⟩ := bind_ok h
  obtain ⟨trash, _, h⟩ := bind_ok h
  obtain ⟨hsiblings, h⟩ := refuseIf_bind_ok h
  obtain ⟨isolatedPath, _, h⟩ := bind_ok h
  obtain ⟨hisolated, h⟩ := refuseIf_bind_ok h
  obtain ⟨instanceId, _, h⟩ := bind_ok h
  obtain ⟨volumeId, _, h⟩ := bind_ok h
  obtain rfl := Except.ok.inj h
  obtain ⟨hroot, rfl⟩ := parentPathBytes_eq_some.mp (elim_ok.mp hparent)
  obtain ⟨hparentId, htargetId, hstagingId, htrashId⟩ := not_any_invalidIdentity.mp hidentities
  obtain ⟨hstaging, htrash⟩ := (not_otherSiblings hroot).mp hsiblings
  exact ⟨hroot, hparentId, htargetId, hstagingId, htrashId, hstaging, htrash,
    (not_otherIsolated hroot).mp hisolated⟩

/-- A path is read back from the hexadecimal digits of its bytes. -/
theorem decodePath_encodeHex (path : AbsolutePath) :
    decodePath (encodeHex path.asBytes) = .ok path := by
  unfold decodePath
  rw [decodeHex_encodeHex]
  simp only [bind, Except.bind, AbsolutePath.tryFromBytes_asBytes]
  rfl

/-- A path that may be absent is read back from its digits, too. -/
theorem decodeOptionalPath_encodeHex (path : Option AbsolutePath) :
    decodeOptionalPath (path.map fun path => encodeHex path.asBytes) = .ok path := by
  cases path with
  | none => rfl
  | some path =>
    rw [Option.map_some, decodeOptionalPath, decodePath_encodeHex]
    rfl

/-- **A valid ownership is read back** from its fields, of whatever version. -/
theorem decodeOwnership_ownershipFields (version : UInt32) (h : ownership.Valid) :
    decodeOwnership (ownershipFields version ownership) = .ok ownership := by
  obtain ⟨instanceId, workspaceId, volumeId, targetPath, parent, target, ⟨staging, stagingId⟩,
    ⟨trash, trashId⟩, isolatedPath⟩ := ownership
  have hidentities := not_any_invalidIdentity.mpr ⟨h.parent, h.target, h.staging, h.trash⟩
  have hparent := parentPathBytes_eq h.target_ne_root
  have hsiblings := (not_otherSiblings h.target_ne_root).mpr ⟨h.staging_path, h.trash_path⟩
  have hisolated := (not_otherIsolated h.target_ne_root).mpr h.isolated_path
  unfold decodeOwnership
  refine bind_eq_ok.mpr ⟨(), refuseIf_eq_ok.mpr hidentities, ?_⟩
  refine bind_eq_ok.mpr ⟨workspaceId, congrArg (Except.mapError _) workspaceId.fromText_toText, ?_⟩
  refine bind_eq_ok.mpr ⟨targetPath, decodePath_encodeHex _, ?_⟩
  refine bind_eq_ok.mpr ⟨targetPath.parent.asBytes, elim_ok.mpr hparent, ?_⟩
  refine bind_eq_ok.mpr ⟨staging, decodePath_encodeHex _, ?_⟩
  refine bind_eq_ok.mpr ⟨trash, decodePath_encodeHex _, ?_⟩
  refine bind_eq_ok.mpr ⟨(), refuseIf_eq_ok.mpr hsiblings, ?_⟩
  refine bind_eq_ok.mpr ⟨isolatedPath, decodeOptionalPath_encodeHex _, ?_⟩
  refine bind_eq_ok.mpr ⟨(), refuseIf_eq_ok.mpr hisolated, ?_⟩
  refine bind_eq_ok.mpr ⟨instanceId, congrArg (Except.mapError _) instanceId.fromText_toText, ?_⟩
  exact bind_eq_ok.mpr ⟨volumeId, elim_ok.mpr volumeId.fromText_toText, rfl⟩

end Decode

/-! ### Linux

The document of Linux has the mount between the two groups of fields.  `RoundTrips` states
both directions for a document format, and each document of this platform satisfies it. -/

/-- `LINUX_OWNERSHIP_SCHEMA_VERSION`: one higher than that of the other documents, since this one
has a mount. -/
def linuxOwnershipSchemaVersion : UInt32 := 3

/-- `WorkspaceOwnership`: the ownership with the mount it was recorded on. -/
structure WorkspaceOwnership extends Ownership where
  mountId : UInt64
deriving DecidableEq

/-- A valid ownership on a mount: a mount has a number other than zero. -/
structure WorkspaceOwnership.Valid (ownership : WorkspaceOwnership) : Prop where
  valid : ownership.toOwnership.Valid
  mountId : ownership.mountId ≠ 0

/-- `OwnershipDocument`: the common fields with that of the mount. -/
structure OwnershipDocument extends OwnershipFields where
  mountId : UInt64

/-- The serialized fields of an `OwnershipDocument`: the mount stands between the identifiers and
the paths. -/
def OwnershipDocument.toTable (document : OwnershipDocument) : TomlTable :=
  document.idTable ++ [("mount_id", .int document.mountId.toNat)] ++ document.pathTable

/-- `Deserialize` of an `OwnershipDocument`: every field is there, and no key that is unknown. -/
def OwnershipDocument.ofTable (table : TomlTable) : Option OwnershipDocument :=
  if table.onlyKeys (ownershipKeys ["mount_id"]) then do
    let fields ← ownershipFields? table
    let mountId ← table.u64? "mount_id"
    pure ⟨fields, mountId⟩
  else none

/-- The keys of the document differ, so that each field is read back from its own entry. -/
theorem nodup_ownershipKeys : (ownershipKeys ["mount_id"]).Nodup := by decide

/-- A document is read back from its own table. -/
theorem OwnershipDocument.ofTable_toTable (document : OwnershipDocument) :
    OwnershipDocument.ofTable document.toTable = some document := by
  have hkeys : (ownershipKeys
      ([("mount_id", Toml.int document.mountId.toNat)].map Prod.fst)).Nodup := nodup_ownershipKeys
  obtain ⟨honly, hnodup, hfields⟩ := ownershipFields?_table document.toOwnershipFields hkeys
  have hmount : document.toTable.u64? "mount_id" = some document.mountId :=
    TomlTable.u64?_of_get? (TomlTable.get?_of_mem hnodup
      (List.mem_append_left _ (List.mem_append_right _ (List.mem_singleton.mpr rfl))))
  have honly' : document.toTable.onlyKeys (ownershipKeys ["mount_id"]) = true := honly
  have hfields' : ownershipFields? document.toTable = some document.toOwnershipFields := hfields
  rw [ofTable, if_pos honly', hfields', hmount]
  rfl

variable (toml : TomlLibrary)

/-- The document that `encode_workspace_ownership` prints: the common fields and the mount. -/
def ownershipDocument (ownership : WorkspaceOwnership) : OwnershipDocument :=
  ⟨ownershipFields linuxOwnershipSchemaVersion ownership.toOwnership, ownership.mountId⟩

/-- `encode_workspace_ownership`: the ownership as a document of the current version. -/
def encodeWorkspaceOwnership (ownership : WorkspaceOwnership) :
    Except DocumentError (List UInt8) :=
  encodeToml toml (ownershipDocument ownership).toTable

/-- `decode_workspace_ownership`: version and mount are checked before the common fields are
decoded. -/
def decodeWorkspaceOwnership (bytes : List UInt8) : Except DocumentError WorkspaceOwnership := do
  let document ← decodeToml toml OwnershipDocument.ofTable bytes
  refuseIf (document.schemaVersion ≠ linuxOwnershipSchemaVersion) .unsupportedVersion
  refuseIf (document.mountId = 0) .invalidIdentity
  let ownership ← decodeOwnership document.toOwnershipFields
  pure ⟨ownership, document.mountId⟩

/-- A document format reads back what it prints of a valid value, and reads nothing else: for a
library that reads the printed table back. -/
structure RoundTrips {V : Type} (toml : TomlLibrary) (Valid : V → Prop) (table : V → TomlTable)
    (encode : V → Except DocumentError (List UInt8))
    (decode : List UInt8 → Except DocumentError V) : Prop where
  printed : ∀ value, encode value = encodeToml toml (table value)
  read_back : ∀ value bytes, Valid value → toml.ReadsBack (table value) →
    encode value = .ok bytes → decode bytes = .ok value
  valid : ∀ bytes value, decode bytes = .ok value → Valid value

variable {toml}

/-- **An ownership document round-trips on Linux.**  A valid ownership is read back from its
document, and what is read from any document is valid. -/
theorem roundTrips_ownership : RoundTrips toml WorkspaceOwnership.Valid
    (fun ownership => (ownershipDocument ownership).toTable) (encodeWorkspaceOwnership toml)
    (decodeWorkspaceOwnership toml) where
  printed _ := rfl
  read_back ownership bytes hvalid hread hencode := by
    have hdocument := decodeToml_encodeToml hread (ownershipDocument ownership).ofTable_toTable
      hencode
    have hownership := decodeOwnership_ownershipFields linuxOwnershipSchemaVersion hvalid.valid
    unfold decodeWorkspaceOwnership
    refine bind_eq_ok.mpr ⟨_, hdocument, ?_⟩
    refine bind_eq_ok.mpr ⟨(), refuseIf_eq_ok.mpr (not_not.mpr rfl), ?_⟩
    refine bind_eq_ok.mpr ⟨(), refuseIf_eq_ok.mpr hvalid.mountId, ?_⟩
    exact bind_eq_ok.mpr ⟨_, hownership, rfl⟩
  valid bytes ownership h := by
    obtain ⟨document, _, h⟩ := bind_ok h
    obtain ⟨_, h⟩ := refuseIf_bind_ok h
    obtain ⟨hmount, h⟩ := refuseIf_bind_ok h
    obtain ⟨decoded, hdecoded, h⟩ := bind_ok h
    obtain rfl := Except.ok.inj h
    exact ⟨valid_of_decodeOwnership hdecoded, hmount⟩

/-- A config document round-trips on Linux; every identity is valid. -/
theorem roundTrips_config : RoundTrips toml (fun _ => True)
    (fun identity => (configDocument identity).toTable) (encodeConfig toml)
    (decodeConfig toml) where
  printed _ := rfl
  read_back _ _ _ hread hencode := decodeConfig_encodeConfig hread hencode
  valid _ _ _ := trivial

/-- A marker document round-trips on Linux; every marker is valid. -/
theorem roundTrips_marker : RoundTrips toml (fun _ => True)
    (fun marker => MarkerDocument.toTable ⟨configDocument marker.identity, marker.state⟩)
    (encodeMarker toml) (decodeMarker toml) where
  printed _ := rfl
  read_back _ _ _ hread hencode := decodeMarker_encodeMarker hread hencode
  valid _ _ _ := trivial

end Linux
end ThinWorkspace
