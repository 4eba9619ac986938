/-
# The documents of macOS

Source: `crates/thinws-adapter-macos/src/document.rs`.  The config and the marker document
are those of Linux; the ownership document has no mount, and the version of the other two.

`documents_round_trip` is about all of them: what is printed of a valid value is read back,
and what is read is valid.
-/

import ThinWorkspace.Linux.InitSafety
import ThinWorkspace.Linux.Ownership

namespace ThinWorkspace
namespace MacOs

open ThinWorkspace.Core Lib Lib.Fallible Ports
open Linux (ConfigDocument MarkerDocument DocumentError OwnershipFields Ownership RoundTrips
  configDocument decodeIdentity decodeOwnership decodeToml documentSchemaVersion encodeToml
  ownershipFields ownershipFields? ownershipKeys)

variable (toml : TomlLibrary)

/-! ### Config and marker

The two documents are the same on both platforms, byte for byte. -/

/-- `decode_bootstrap_config`: as on Linux, the version is checked before any field is interpreted.
-/
def decodeBootstrapConfig (bytes : List UInt8) : Except DocumentError InstallationIdentity := do
  let document ← decodeToml toml ConfigDocument.ofTable bytes
  refuseIf (document.schemaVersion ≠ documentSchemaVersion) .unsupportedVersion
  decodeIdentity document

/-- `encode_config`: the very document that Linux writes. -/
def encodeConfig (identity : InstallationIdentity) : Except DocumentError (List UInt8) :=
  encodeToml toml (configDocument identity).toTable

/-- `decode_root_marker`: the identity as in a config, together with the state. -/
def decodeRootMarker (bytes : List UInt8) : Except DocumentError RootMarker := do
  let document ← decodeToml toml MarkerDocument.ofTable bytes
  refuseIf (document.schemaVersion ≠ documentSchemaVersion) .unsupportedVersion
  let identity ← decodeIdentity document.toConfigDocument
  pure ⟨identity, document.state⟩

/-- `encode_marker`: the very document that Linux writes. -/
def encodeMarker (marker : RootMarker) : Except DocumentError (List UInt8) :=
  encodeToml toml (MarkerDocument.toTable ⟨configDocument marker.identity, marker.state⟩)

/-! ### Ownership

The ownership of macOS has no mount, and its version is that of the other documents.
Everything else is shared with Linux. -/

/-- `WorkspaceOwnership`: on this platform an ownership has no mount. -/
abbrev WorkspaceOwnership := Ownership

/-- The serialized fields of an `OwnershipDocument`: nothing stands between the identifiers and the
paths. -/
def ownershipTable (document : OwnershipFields) : TomlTable :=
  document.idTable ++ [] ++ document.pathTable

/-- `Deserialize` of an `OwnershipDocument`: every field is there, and no key that is unknown. -/
def ownershipOfTable (table : TomlTable) : Option OwnershipFields :=
  if table.onlyKeys (ownershipKeys []) then ownershipFields? table else none

/-- `encode_workspace_ownership`: under the version of the config and the marker. -/
def encodeWorkspaceOwnership (ownership : WorkspaceOwnership) :
    Except DocumentError (List UInt8) :=
  encodeToml toml (ownershipTable (ownershipFields documentSchemaVersion ownership))

/-- `decode_workspace_ownership`: the version is checked, then the common fields are decoded. -/
def decodeWorkspaceOwnership (bytes : List UInt8) : Except DocumentError WorkspaceOwnership := do
  let document ← decodeToml toml ownershipOfTable bytes
  refuseIf (document.schemaVersion ≠ documentSchemaVersion) .unsupportedVersion
  decodeOwnership document

/-- The keys of the document differ, so that each field is read back from its own entry. -/
theorem nodup_ownershipKeys : (ownershipKeys []).Nodup := by decide

/-- A document is read back from its own table. -/
theorem ownershipOfTable_ownershipTable (document : OwnershipFields) :
    ownershipOfTable (ownershipTable document) = some document := by
  have hkeys : (ownershipKeys (([] : TomlTable).map Prod.fst)).Nodup := nodup_ownershipKeys
  obtain ⟨honly, -, hfields⟩ := Linux.ownershipFields?_table document hkeys
  have honly' : (ownershipTable document).onlyKeys (ownershipKeys []) = true := honly
  exact (if_pos honly').trans hfields

variable {toml}

/-- A config document round-trips on macOS, for every identity. -/
theorem roundTrips_config : RoundTrips toml (fun _ => True)
    (fun identity => (configDocument identity).toTable) (encodeConfig toml)
    (decodeBootstrapConfig toml) where
  printed _ := rfl
  read_back identity bytes _ hread hencode := by
    have hdocument := Linux.decodeToml_encodeToml hread
      (ConfigDocument.ofTable_toTable (configDocument identity) rfl) hencode
    refine bind_eq_ok.mpr ⟨_, hdocument, ?_⟩
    refine bind_eq_ok.mpr ⟨(), refuseIf_eq_ok.mpr (not_not.mpr rfl), ?_⟩
    exact Linux.decodeIdentity_configDocument identity
  valid _ _ _ := trivial

/-- A marker document round-trips on macOS, for every identity and state. -/
theorem roundTrips_marker : RoundTrips toml (fun _ => True)
    (fun marker => MarkerDocument.toTable ⟨configDocument marker.identity, marker.state⟩)
    (encodeMarker toml) (decodeRootMarker toml) where
  printed _ := rfl
  read_back marker bytes _ hread hencode := by
    have hdocument := Linux.decodeToml_encodeToml hread
      (MarkerDocument.ofTable_toTable ⟨configDocument marker.identity, marker.state⟩ rfl) hencode
    refine bind_eq_ok.mpr ⟨_, hdocument, ?_⟩
    refine bind_eq_ok.mpr ⟨(), refuseIf_eq_ok.mpr (not_not.mpr rfl), ?_⟩
    exact bind_eq_ok.mpr ⟨_, Linux.decodeIdentity_configDocument marker.identity, rfl⟩
  valid _ _ _ := trivial

/-- **An ownership document round-trips on macOS.** A valid ownership is read back from its
document, and what is read from any document is valid. -/
theorem roundTrips_ownership : RoundTrips toml Ownership.Valid
    (fun ownership => ownershipTable (ownershipFields documentSchemaVersion ownership))
    (encodeWorkspaceOwnership toml) (decodeWorkspaceOwnership toml) where
  printed _ := rfl
  read_back ownership bytes hvalid hread hencode := by
    have hdocument := Linux.decodeToml_encodeToml hread
      (ownershipOfTable_ownershipTable (ownershipFields documentSchemaVersion ownership)) hencode
    refine bind_eq_ok.mpr ⟨_, hdocument, ?_⟩
    refine bind_eq_ok.mpr ⟨(), refuseIf_eq_ok.mpr (not_not.mpr rfl), ?_⟩
    exact Linux.decodeOwnership_ownershipFields documentSchemaVersion hvalid
  valid bytes ownership h := by
    obtain ⟨document, _, h⟩ := bind_ok h
    obtain ⟨_, h⟩ := refuseIf_bind_ok h
    exact Linux.valid_of_decodeOwnership h

/-- **Every document round-trips on both platforms.**  Whatever a library that reads back what it
prints makes of a valid value, the decoder gives that value back; and what a decoder accepts is
valid. -/
theorem documents_round_trip (toml : TomlLibrary) :
    (RoundTrips toml (fun _ => True) (fun identity => (configDocument identity).toTable)
        (Linux.encodeConfig toml) (Linux.decodeConfig toml) ∧
      RoundTrips toml (fun _ => True)
        (fun marker => MarkerDocument.toTable ⟨configDocument marker.identity, marker.state⟩)
        (Linux.encodeMarker toml) (Linux.decodeMarker toml) ∧
      RoundTrips toml Linux.WorkspaceOwnership.Valid
        (fun ownership => (Linux.ownershipDocument ownership).toTable)
        (Linux.encodeWorkspaceOwnership toml) (Linux.decodeWorkspaceOwnership toml)) ∧
    RoundTrips toml (fun _ => True) (fun identity => (configDocument identity).toTable)
        (encodeConfig toml) (decodeBootstrapConfig toml) ∧
      RoundTrips toml (fun _ => True)
        (fun marker => MarkerDocument.toTable ⟨configDocument marker.identity, marker.state⟩)
        (encodeMarker toml) (decodeRootMarker toml) ∧
      RoundTrips toml Ownership.Valid
        (fun ownership => ownershipTable (ownershipFields documentSchemaVersion ownership))
        (encodeWorkspaceOwnership toml) (decodeWorkspaceOwnership toml) :=
  ⟨⟨Linux.roundTrips_config, Linux.roundTrips_marker, Linux.roundTrips_ownership⟩,
    roundTrips_config, roundTrips_marker, roundTrips_ownership⟩

/-! ### One ownership

An ownership whose target is no text, so that the hexadecimal form of its path is needed; a
library made for its table reads it back. -/

/-- The sample target is an absolute path, though it is no text. -/
theorem validatePath_sampleTarget : validatePath [47, 255] = .ok () := by decide

/-- A target whose name is no text, so that its hexadecimal form is needed. -/
def sampleTarget : AbsolutePath := ⟨[47, 255], validatePath_sampleTarget⟩

/-- The sample target is not the root, so it has a parent and siblings. -/
theorem sampleTarget_ne_root : sampleTarget.asBytes ≠ [slash] := by decide

/-- The name of a sibling of the sample is one component. -/
theorem normal_sampleSibling {kind : String} (h : kind ∈ Application.siblingKinds) :
    AbsolutePath.Normal (asBytes (kind ++ sampleReservation.workspaceId.toText)) :=
  Application.normal_siblingName (Application.mem_siblingNames.mpr ⟨kind, h, asBytes_append _ _⟩)

/-- A sibling of the target, in the same directory. -/
def sampleSibling (kind : String) (h : kind ∈ Application.siblingKinds) : AbsolutePath :=
  sampleTarget.parent.child _ (normal_sampleSibling h)

/-- It is the sibling that the decoder expects, of whichever kind. -/
theorem isSibling_sampleSibling {kind : String} (h : kind ∈ Application.siblingKinds) :
    Linux.IsSibling sampleTarget sampleReservation.workspaceId kind (sampleSibling kind h) :=
  (Linux.derivedAlike sampleTarget_ne_root (normal_sampleSibling h)).document

/-- The staging directory is one of the siblings. -/
theorem staging_mem : ".thinws-staging-" ∈ Application.siblingKinds := by
  simp [Application.siblingKinds]

/-- The trash directory is one of the siblings. -/
theorem trash_mem : ".thinws-trash-" ∈ Application.siblingKinds := by
  simp [Application.siblingKinds]

/-- An ownership of it, with a moment of birth just below a full second. -/
def sampleOwnership : Ownership where
  instanceId := sampleReservation.instanceId
  workspaceId := sampleReservation.workspaceId
  volumeId := sampleReservation.targetVolumeId
  targetPath := sampleTarget
  parent := ⟨2, 0, 0⟩
  target := ⟨3, 1, 999999999⟩
  staging := ⟨sampleSibling _ staging_mem, ⟨4, 1, 0⟩⟩
  trash := ⟨sampleSibling _ trash_mem, ⟨5, 1, 0⟩⟩
  isolatedPath := none

/-- The sample ownership keeps the invariant that its decoder checks. -/
theorem valid_sampleOwnership : sampleOwnership.Valid where
  target_ne_root := sampleTarget_ne_root
  parent := ⟨by decide, by decide, by decide⟩
  target := ⟨by decide, by decide, by decide⟩
  staging := ⟨by decide, by decide, by decide⟩
  trash := ⟨by decide, by decide, by decide⟩
  staging_path := isSibling_sampleSibling staging_mem
  trash_path := isSibling_sampleSibling trash_mem
  isolated_path := fun _ h => by cases h

/-- A library that knows one table, and reads only the text of it. -/
def libraryOfTable (table : TomlTable) : TomlLibrary where
  toText other := if other = table then some (Linux.tomlText table) else none
  fromText text := if text = Linux.tomlText table then some table else none

/-- That library prints the table it was made for. -/
theorem libraryOfTable_toText (table : TomlTable) :
    (libraryOfTable table).toText table = some (Linux.tomlText table) := if_pos rfl

/-- That library reads the table back, as it is asked of a library. -/
theorem libraryOfTable_readsBack (table : TomlTable) : (libraryOfTable table).ReadsBack table := by
  intro text h
  have htext : Linux.tomlText table = text := by
    simpa [libraryOfTable] using h
  rw [← htext]
  exact if_pos rfl

/-- The table of the sample ownership, which the library is made for. -/
def sampleTable : TomlTable :=
  ownershipTable (ownershipFields documentSchemaVersion sampleOwnership)

/-- Its text is within the limit of a document. -/
theorem length_sampleTable :
    ¬Linux.maxDocumentBytes < (asBytes (Linux.tomlText sampleTable)).length := by
  decide +kernel

/-- What is printed within the limit is encoded as its bytes. -/
theorem encodeToml_of_toText {toml : TomlLibrary} {table : TomlTable} {text : String}
    (htext : toml.toText table = some text) (h : ¬Linux.maxDocumentBytes < (asBytes text).length) :
    encodeToml toml table = .ok (asBytes text) := by
  unfold encodeToml
  rw [htext]
  exact if_neg h

/-- The ownership of a target whose name is no text is read back, by a library that is made for
this one table. -/
theorem documents_round_trip_sample :
    ∃ bytes, encodeWorkspaceOwnership (libraryOfTable sampleTable) sampleOwnership = .ok bytes ∧
      decodeWorkspaceOwnership (libraryOfTable sampleTable) bytes = .ok sampleOwnership := by
  obtain ⟨-, -, -, htrips⟩ := documents_round_trip (libraryOfTable sampleTable)
  have hencode : encodeWorkspaceOwnership (libraryOfTable sampleTable) sampleOwnership =
      .ok (asBytes (Linux.tomlText sampleTable)) :=
    encodeToml_of_toText (libraryOfTable_toText sampleTable) length_sampleTable
  exact ⟨_, hencode, htrips.read_back _ _ valid_sampleOwnership
    (libraryOfTable_readsBack sampleTable) hencode⟩

end MacOs
end ThinWorkspace
