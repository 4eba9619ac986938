/-
# Control documents

Source: `crates/thinws-adapter-linux/src/document.rs`, the config and marker
documents.  `decodeConfig_encodeConfig` and `decodeMarker_encodeMarker`: what was
encoded is what is decoded, for a TOML library that reads back what it prints.

Paths are written in hexadecimal, since a path need not be text; the identifiers are read
back by `Core/Id`.  The ownership document shares the reading and writing of tables.
-/

import ThinWorkspace.Lib.Toml
import ThinWorkspace.Ports.Bootstrap

namespace ThinWorkspace
namespace Linux

open ThinWorkspace.Core Lib Ports

/-- `MAX_DOCUMENT_BYTES`: neither is a longer document read, nor is one written. -/
def maxDocumentBytes : ℕ := 64 * 1024

/-- `DOCUMENT_SCHEMA_VERSION`: the one version that is written and accepted. -/
def documentSchemaVersion : UInt32 := 2

/-- `DocumentError`: the reasons for which a document is refused, one for each step of its
decoding. -/
inductive DocumentError where
  | tooLarge | invalidEncoding | invalidToml | unsupportedVersion | invalidPathHex
  | invalidIdentity
deriving DecidableEq

/-! ### Hexadecimal paths

Paths need not be text, so they are written in hexadecimal.  Each byte is two digits of a
fixed alphabet, and is read back. -/

/-- A remainder by sixteen is a hexadecimal digit, so that the table of digits is never left. -/
theorem nibble_lt (n : ℕ) : n % 16 < 16 := Nat.mod_lt n (by decide)

/-- The low four bits of a number, as an index of the table of digits. -/
def nibble (n : ℕ) : Fin 16 := ⟨n % 16, nibble_lt n⟩

/-- `encode_hex`: two digits for each byte, the high one first, in lower case. -/
def encodeHex (bytes : List UInt8) : String :=
  String.ofList (bytes.flatMap fun byte =>
    [hexDigit (nibble (byte.toNat / 16)), hexDigit (nibble byte.toNat)])

/-- `hex_nibble` of a digit or a lower-case letter up to `f`. -/
def hexNibble (c : Char) : Option ℕ :=
  if '0' ≤ c ∧ c ≤ '9' then some (c.toNat - '0'.toNat)
  else if 'a' ≤ c ∧ c ≤ 'f' then some (c.toNat - 'a'.toNat + 10)
  else none

/-- `decode_hex` on the characters: no pair with anything else in it. -/
def decodeHexChars : List Char → Except DocumentError (List UInt8)
  | [] => .ok []
  | [_] => .error .invalidPathHex
  | high :: low :: rest =>
    match hexNibble high, hexNibble low with
    | some h, some l => do
      let bytes ← decodeHexChars rest
      pure (UInt8.ofNat (16 * h + l) :: bytes)
    | _, _ => .error .invalidPathHex

/-- `decode_hex`: pairs of digits, read from the characters of the text. -/
def decodeHex (value : String) : Except DocumentError (List UInt8) := decodeHexChars value.toList

/-- A hexadecimal digit is read back, whichever of the sixteen it is. -/
theorem hexNibble_hexDigit : ∀ d : Fin 16, hexNibble (hexDigit d) = some d.val := by decide

/-- Bytes are read back from their hexadecimal digits: by induction on the bytes, each of which is
two digits. -/
theorem decodeHex_encodeHex (bytes : List UInt8) : decodeHex (encodeHex bytes) = .ok bytes := by
  unfold decodeHex encodeHex
  rw [String.toList_ofList]
  induction bytes with
  | nil => rfl
  | cons byte bytes ih =>
    have hbyte : 16 * (byte.toNat / 16 % 16) + byte.toNat % 16 = byte.toNat := by
      have hlt := byte.toNat_lt
      omega
    rw [List.flatMap_cons, List.cons_append, List.cons_append, List.nil_append, decodeHexChars,
      hexNibble_hexDigit, hexNibble_hexDigit, ih]
    simp only [nibble, hbyte, UInt8.ofNat_toNat]
    rfl

/-! ### Documents

The two documents as records of texts and numbers, and as tables.  Every field is required
and no other key is accepted. -/

/-- `ConfigDocument`: the fields as they stand in the file.  Paths are written in hexadecimal,
since they need not be text. -/
structure ConfigDocument where
  schemaVersion : UInt32
  instanceId : String
  controlRootHex : String
  controlVolumeId : String

/-- `MarkerDocument`: the fields of the config, and the state of the installation. -/
structure MarkerDocument extends ConfigDocument where
  state : RootMarkerState

/-- The serialized fields of a `ConfigDocument`, in the order of the source. -/
def ConfigDocument.toTable (document : ConfigDocument) : TomlTable :=
  [("schema_version", .int document.schemaVersion.toNat),
    ("instance_id", .str document.instanceId),
    ("control_root_hex", .str document.controlRootHex),
    ("control_volume_id", .str document.controlVolumeId)]

/-- `MarkerState` in lower case, as it is serialized. -/
def markerStateText : RootMarkerState → String
  | .initializing => "initializing"
  | .ready => "ready"

/-- `MarkerState` of its text; no other spelling is accepted. -/
def markerStateOf : String → Option RootMarkerState
  | "initializing" => some .initializing
  | "ready" => some .ready
  | _ => none

/-- The serialized fields of a `MarkerDocument`: the state is the last. -/
def MarkerDocument.toTable (document : MarkerDocument) : TomlTable :=
  document.toConfigDocument.toTable ++ [("state", .str (markerStateText document.state))]

/-- The fields that both documents have; a missing one, or one of another type, makes the whole
document invalid. -/
def commonFields (table : TomlTable) : Option ConfigDocument := do
  let schemaVersion ← table.u32? "schema_version"
  let instanceId ← table.str? "instance_id"
  let controlRootHex ← table.str? "control_root_hex"
  let controlVolumeId ← table.str? "control_volume_id"
  pure ⟨schemaVersion, instanceId, controlRootHex, controlVolumeId⟩

/-- The keys of a `ConfigDocument`, against which an unknown key is recognized. -/
def configKeys : List String :=
  ["schema_version", "instance_id", "control_root_hex", "control_volume_id"]

/-- `Deserialize` of a `ConfigDocument`: every field is there, and no other one. -/
def ConfigDocument.ofTable (table : TomlTable) : Option ConfigDocument :=
  if table.onlyKeys configKeys then commonFields table else none

/-- `Deserialize` of a `MarkerDocument`: the same, with the state as a fifth key. -/
def MarkerDocument.ofTable (table : TomlTable) : Option MarkerDocument :=
  if table.onlyKeys (configKeys ++ ["state"]) then do
    let document ← commonFields table
    let state ← (← table.str? "state") |> markerStateOf
    pure ⟨document, state⟩
  else none

/-- A config document of the current version is read back from its own table. -/
theorem ConfigDocument.ofTable_toTable (document : ConfigDocument)
    (h : document.schemaVersion = documentSchemaVersion) :
    ConfigDocument.ofTable document.toTable = some document := by
  obtain ⟨version, instanceId, root, volume⟩ := document
  obtain rfl : version = documentSchemaVersion := h
  have hversion : (documentSchemaVersion.toNat : ℤ) < 4294967296 := by decide
  simp [ofTable, toTable, configKeys, commonFields, TomlTable.onlyKeys, TomlTable.u32?,
    TomlTable.str?, TomlTable.get?, hversion]

/-- The state of a marker is read back from its text. -/
theorem markerStateOf_text (state : RootMarkerState) :
    markerStateOf (markerStateText state) = some state := by
  cases state <;> rfl

/-- A marker document of the current version is read back from its own table. -/
theorem MarkerDocument.ofTable_toTable (document : MarkerDocument)
    (h : document.schemaVersion = documentSchemaVersion) :
    MarkerDocument.ofTable document.toTable = some document := by
  obtain ⟨⟨version, instanceId, root, volume⟩, state⟩ := document
  obtain rfl : version = documentSchemaVersion := h
  have hversion : (documentSchemaVersion.toNat : ℤ) < 4294967296 := by decide
  simp [ofTable, toTable, ConfigDocument.toTable, configKeys, commonFields, TomlTable.onlyKeys,
    TomlTable.u32?, TomlTable.str?, TomlTable.get?, hversion, markerStateOf_text]

/-! ### Bytes

A document is printed by the library and checked for its length; it is decoded by the steps
of the source, each with its own error.  Both documents read back, given a library that
reads back what it prints. -/

/-- `str::from_utf8`: the text of the bytes, if they are one. -/
def fromUtf8 (bytes : List UInt8) : Option String := String.fromUTF8? ⟨bytes.toArray⟩

/-- A text is read back from its bytes, so that the encoding is never the reason for which an
encoded document is refused. -/
theorem fromUtf8_asBytes (text : String) : fromUtf8 (asBytes text) = some text := by
  have hbytes : (⟨(asBytes text).toArray⟩ : ByteArray) = text.toByteArray := rfl
  unfold fromUtf8 String.fromUTF8?
  rw [hbytes, dif_pos text.isValidUTF8]
  rfl

variable (toml : TomlLibrary)

/-- `decode_toml`: the length, the encoding, the syntax and the fields are checked in this order.
-/
def decodeToml {T : Type} (ofTable : TomlTable → Option T) (bytes : List UInt8) :
    Except DocumentError T :=
  if bytes.length > maxDocumentBytes then .error .tooLarge
  else
    match fromUtf8 bytes with
    | none => .error .invalidEncoding
    | some text =>
      match (toml.fromText text).bind ofTable with
      | none => .error .invalidToml
      | some document => .ok document

/-- `encode_toml`: the limit of a document holds of what is written as well. -/
def encodeToml (table : TomlTable) : Except DocumentError (List UInt8) :=
  match toml.toText table with
  | none => .error .invalidToml
  | some text =>
    if (asBytes text).length > maxDocumentBytes then .error .tooLarge else .ok (asBytes text)

/-- What the library prints is decoded as the document, if the library reads it back and the table
is one of the document. -/
theorem decodeToml_encodeToml {T : Type} {toml : TomlLibrary} {ofTable : TomlTable → Option T}
    {table : TomlTable} {document : T} {bytes : List UInt8} (hread : toml.ReadsBack table)
    (hof : ofTable table = some document) (h : encodeToml toml table = .ok bytes) :
    decodeToml toml ofTable bytes = .ok document := by
  unfold encodeToml at h
  split at h
  · cases h
  · rename_i text htext
    split at h
    · cases h
    · rename_i hsize
      obtain rfl := Except.ok.inj h
      unfold decodeToml
      rw [if_neg hsize, fromUtf8_asBytes]
      simp only [hread text htext, Option.bind_some, hof]

/-- `require_schema_version`: an older and a newer version are refused alike. -/
def requireSchemaVersion (version : UInt32) : Except DocumentError Unit :=
  if version = documentSchemaVersion then .ok () else .error .unsupportedVersion

/-- `decode_identity`: the identifier, the path and the volume; a path that is no hexadecimal text
has an error of its own. -/
def decodeIdentity (document : ConfigDocument) : Except DocumentError InstallationIdentity := do
  let instanceId ← (UuidV7.fromText document.instanceId).mapError fun _ =>
    DocumentError.invalidIdentity
  let bytes ← decodeHex document.controlRootHex
  let dataRoot ← (AbsolutePath.tryFromBytes bytes).mapError fun _ => DocumentError.invalidIdentity
  let volumeId ← (VolumeId.fromText document.controlVolumeId).elim
    (.error DocumentError.invalidIdentity) .ok
  pure ⟨instanceId, dataRoot, volumeId⟩

/-- The document of an identity: its parts in their textual form, under the current version. -/
def configDocument (identity : InstallationIdentity) : ConfigDocument where
  schemaVersion := documentSchemaVersion
  instanceId := identity.instanceId.toText
  controlRootHex := encodeHex identity.dataRoot.asBytes
  controlVolumeId := identity.volumeId.toText

/-- `decode_config`: the version is checked before any field is interpreted. -/
def decodeConfig (bytes : List UInt8) : Except DocumentError InstallationIdentity := do
  let document ← decodeToml toml ConfigDocument.ofTable bytes
  requireSchemaVersion document.schemaVersion
  decodeIdentity document

/-- `encode_config`: the identity of the installation, for a later run to read. -/
def encodeConfig (identity : InstallationIdentity) : Except DocumentError (List UInt8) :=
  encodeToml toml (configDocument identity).toTable

/-- `decode_marker`: the identity as in a config, together with the state. -/
def decodeMarker (bytes : List UInt8) : Except DocumentError RootMarker := do
  let document ← decodeToml toml MarkerDocument.ofTable bytes
  requireSchemaVersion document.schemaVersion
  let identity ← decodeIdentity document.toConfigDocument
  pure ⟨identity, document.state⟩

/-- `encode_marker`: the same identity with the state of its publication. -/
def encodeMarker (marker : RootMarker) : Except DocumentError (List UInt8) :=
  encodeToml toml (MarkerDocument.toTable ⟨configDocument marker.identity, marker.state⟩)

variable {toml} {bytes : List UInt8}

/-- The identity of an installation is read back from its document. -/
theorem decodeIdentity_configDocument (identity : InstallationIdentity) :
    decodeIdentity (configDocument identity) = .ok identity := by
  unfold decodeIdentity configDocument
  simp only [UuidV7.fromText_toText, decodeHex_encodeHex, VolumeId.fromText_toText,
    Except.mapError, bind, Except.bind, AbsolutePath.tryFromBytes_asBytes, Option.elim]
  rfl

/-- The config document has the version that is required. -/
theorem requireSchemaVersion_configDocument (identity : InstallationIdentity) :
    requireSchemaVersion (configDocument identity).schemaVersion = .ok () := if_pos rfl

/-- **A config document reads back.**  Whatever was encoded is decoded to the same identity: the
library reads back the table, the fields are all there, and each part is read back from its text.
-/
theorem decodeConfig_encodeConfig {identity : InstallationIdentity}
    (hread : toml.ReadsBack (configDocument identity).toTable)
    (h : encodeConfig toml identity = .ok bytes) : decodeConfig toml bytes = .ok identity := by
  have hdocument := ConfigDocument.ofTable_toTable (configDocument identity) rfl
  unfold decodeConfig
  rw [decodeToml_encodeToml hread hdocument h]
  simp only [bind, Except.bind, requireSchemaVersion_configDocument, decodeIdentity_configDocument]

/-- **A marker document reads back.**  As for the config, with the state as one more field. -/
theorem decodeMarker_encodeMarker {marker : RootMarker}
    (hread : toml.ReadsBack (MarkerDocument.toTable ⟨configDocument marker.identity, marker.state⟩))
    (h : encodeMarker toml marker = .ok bytes) : decodeMarker toml bytes = .ok marker := by
  have hdocument :=
    MarkerDocument.ofTable_toTable ⟨configDocument marker.identity, marker.state⟩ rfl
  have hidentity := decodeIdentity_configDocument marker.identity
  unfold decodeMarker
  rw [decodeToml_encodeToml hread hdocument h]
  simp only [bind, Except.bind, requireSchemaVersion_configDocument, hidentity]
  rfl

end Linux
end ThinWorkspace
