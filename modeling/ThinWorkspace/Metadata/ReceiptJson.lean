/-
# The stored receipt document

Source: `crates/thinws-metadata-sqlite/src/receipt_json.rs`.  `finalReceiptJson`
is the encoder and `decodeFinalSummary` the decoder, which reads only the fields
of a summary and refuses a document whose fields do not fit together.

Each word has its own function in both directions, as in the source; that the decoder
accepts what the encoder prints of an accepted receipt is shown in `Readable`.
-/

import ThinWorkspace.Lib.Json
import ThinWorkspace.Ports.Metadata

namespace ThinWorkspace
namespace Metadata

open ThinWorkspace.Core Lib Ports

/-- `RECEIPT_SCHEMA_VERSION`: the one version that is written and read. -/
def receiptSchemaVersion : ℤ := 1

/-! ### Words

The words of the stored document, one for each constructor of an enumeration.  The encoder
and the decoder each spell them out in the source, so both tables are kept. -/

/-- `receipt_json.rs::mode`: the word for a mode, under which it is stored. -/
def modeText : MaterializationMode → String
  | .cowClone => "cow_clone"
  | .fullCopy => "full_copy"

/-- `receipt_json.rs::adapter`: the word for the materializer that did the work. -/
def adapterText : MaterializerKind → String
  | .apfsFileClone => "apfs_file_clone"
  | .btrfsReflink => "btrfs_reflink"
  | .fullCopy => "full_copy"

/-- `receipt_json.rs::outcome`: the word for what became of the attempt. -/
def outcomeText : MaterializationOutcome → String
  | .succeeded => "succeeded"
  | .partialWork => "partial"
  | .failed => "failed"

/-- `receipt_json.rs::cow`: the word for what is known of shared blocks. -/
def cowText : CowEvidence → String
  | .confirmed => "confirmed"
  | .notUsed => "not_used"
  | .unknown => "unknown"

/-- `receipt_json.rs::fallback`: the word for the reason of a full copy. -/
def fallbackText : FallbackReason → String
  | .cloneUnsupportedAtPreflight => "clone_unsupported_at_preflight"
  | .cloneUnavailableAtRuntime => "clone_unavailable_at_runtime"

/-- `receipt_json.rs::failure`: the word for why an attempt failed. -/
def failureText : MaterializationFailureKind → String
  | .planStale => "plan_stale"
  | .invalidLayout => "invalid_layout"
  | .unsupportedSourceEntry => "unsupported_source_entry"
  | .sourceChanged => "source_changed"
  | .targetChanged => "target_changed"
  | .cowUnavailable => "cow_unavailable"
  | .noSpace => "no_space"
  | .manifestMismatch => "manifest_mismatch"
  | .filesystem => "filesystem"

/-- The rollback status word, which the source writes out where a rollback is encoded. -/
def rollbackStatusText : RollbackStatus → String
  | .notNeeded => "not_needed"
  | .confirmedBaseline => "confirmed_baseline"
  | .incomplete => "incomplete"

/-- The entry kind word, which the source writes out where a created entry is encoded. -/
def entryKindText : MaterializedEntryKind → String
  | .directory => "directory"
  | .regularFile => "regular_file"
  | .symbolicLink => "symbolic_link"

/-- `receipt_json.rs::hex`: two lower-case digits for each byte; paths and digests are stored in
this form. -/
def hex (bytes : List UInt8) : String :=
  String.ofList (bytes.flatMap fun byte =>
    [hexDigit ⟨byte.toNat / 16 % 16, Nat.mod_lt _ (by decide)⟩,
      hexDigit ⟨byte.toNat % 16, Nat.mod_lt _ (by decide)⟩])

/-! ### Encoder

The encoder writes every field of a receipt, in objects and arrays as the source nests them.
The decoder reads only some of them, but the document as a whole is what is stored. -/

/-- An optional value, `null` when absent, as `serde_json` encodes an option. -/
def optional {T : Type} (encode : T → Json) : Option T → Json
  | none => .null
  | some value => encode value

/-- `receipt_json.rs::created`: one created entry, with its identity where it was seen. -/
def createdJson (value : CreatedObjectEvidence) : Json :=
  .obj
    [("path_hex", .str (hex value.path.asBytes)),
      ("kind", .str (entryKindText value.kind)),
      ("identity", optional (fun identity : FileIdentity =>
        .obj [("device", .num identity.device), ("inode", .num identity.inode)]) value.identity)]

/-- `receipt_json.rs::rollback`: the status and the paths of a rollback. -/
def rollbackJson (value : RollbackEvidence) : Json :=
  let paths (ps : List RelativePath) : Json := .arr (ps.map fun p => .str (hex p.asBytes))
  .obj
    [("status", .str (rollbackStatusText value.status)),
      ("removed_hex", paths value.removed),
      ("quarantined_hex", paths value.quarantined),
      ("unconfirmed_quarantined_hex", paths value.unconfirmedQuarantined),
      ("remaining", .arr (value.remaining.map createdJson))]

/-- `receipt_json.rs::failed_attempt`: an attempt that was given up, field by field as for the
receipt itself. -/
def failedAttemptJson (value : FailedMaterializationAttempt) : Json :=
  .obj
    [("probe_evidence_digest", .str (hex value.probeEvidenceDigest.bytes)),
      ("attempted_mode", .str (modeText value.attemptedMode)),
      ("actual_adapter", .str (adapterText value.actualAdapter)),
      ("outcome", .str (outcomeText value.outcome)),
      ("failure_kind", .str (failureText value.failureKind)),
      ("source_volume_id", optional (fun id : VolumeId => .str id.toText) value.sourceVolumeId),
      ("target_volume_id", optional (fun id : VolumeId => .str id.toText) value.targetVolumeId),
      ("created", .arr (value.created.map createdJson)),
      ("rollback", rollbackJson value.rollback),
      ("elapsed_millis", .num value.elapsedMillis),
      ("logical_bytes", optional .num value.evidence.logicalBytes),
      ("physical_bytes", optional .num value.evidence.physicalBytes),
      ("regular_file_count", optional .num value.evidence.regularFileCount),
      ("clone_calls_succeeded", .num value.evidence.cloneCallsSucceeded),
      ("source_manifest_digest",
        optional (fun d : TreeDigest => .str (hex d.bytes)) value.evidence.sourceManifestDigest),
      ("target_manifest_digest",
        optional (fun d : TreeDigest => .str (hex d.bytes)) value.evidence.targetManifestDigest)]

/-- `final_receipt_json`: the whole receipt as one object.  The decoder reads only some of these
fields back. -/
def finalReceiptJson (receipt : MaterializationReceipt) : Json :=
  .obj
    [("probe_evidence_digest", .str (hex receipt.probeEvidenceDigest.bytes)),
      ("requested_mode", .str (modeText receipt.requestedMode)),
      ("effective_mode", .str (modeText receipt.effectiveMode)),
      ("actual_mode", .str (modeText receipt.actualMode)),
      ("actual_adapter", .str (adapterText receipt.actualAdapter)),
      ("outcome", .str (outcomeText receipt.outcome)),
      ("cow_evidence", .str (cowText receipt.cowEvidence)),
      ("source_volume_id", optional (fun id : VolumeId => .str id.toText) receipt.sourceVolumeId),
      ("target_volume_id", optional (fun id : VolumeId => .str id.toText) receipt.targetVolumeId),
      ("created", .arr (receipt.created.map createdJson)),
      ("unconfirmed_staging", optional createdJson receipt.unconfirmedStaging),
      ("rollback", rollbackJson receipt.rollback),
      ("elapsed_millis", .num receipt.elapsedMillis),
      ("logical_bytes", optional .num receipt.logicalBytes),
      ("physical_bytes", optional .num receipt.physicalBytes),
      ("regular_file_count", optional .num receipt.regularFileCount),
      ("clone_calls_succeeded", .num receipt.cloneCallsSucceeded),
      ("source_manifest_digest",
        optional (fun d : TreeDigest => .str (hex d.bytes)) receipt.sourceManifestDigest),
      ("target_manifest_digest",
        optional (fun d : TreeDigest => .str (hex d.bytes)) receipt.targetManifestDigest),
      ("failure_kind",
        optional (fun k : MaterializationFailureKind => .str (failureText k)) receipt.failureKind),
      ("fallback_reason",
        optional (fun r : FallbackReason => .str (fallbackText r)) receipt.fallbackReason),
      ("failed_attempts", .arr (receipt.failedAttempts.map failedAttemptJson))]

/-! ### Decoder

The decoder reads a success and nothing else: any document that does not look like one, by
its words, its digests or its shape, is refused with one error. -/

/-- `invalid_receipt`: the one error for a document whose fields are missing, unknown or at odds
with each other. -/
def invalidReceipt : PortError := .new .invalidData "decode final receipt"

/-- `receipt_json.rs::field`: a field of the document that has to be a text. -/
def field (value : Json) (key : String) : Except PortError String :=
  match (value.get? key).bind Json.asStr? with
  | some s => .ok s
  | none => .error invalidReceipt

/-- `decode_mode`: the mode of a word; any other word makes the document invalid. -/
def decodeMode (value : String) : Except PortError MaterializationMode :=
  if value = "cow_clone" then .ok .cowClone
  else if value = "full_copy" then .ok .fullCopy
  else .error invalidReceipt

/-- `decode_adapter`: the materializer of a word. -/
def decodeAdapter (value : String) : Except PortError MaterializerKind :=
  if value = "apfs_file_clone" then .ok .apfsFileClone
  else if value = "btrfs_reflink" then .ok .btrfsReflink
  else if value = "full_copy" then .ok .fullCopy
  else .error invalidReceipt

/-- `decode_cow`: the evidence of a word.  The word `unknown` is refused, since no successful
receipt has it. -/
def decodeCow (value : String) : Except PortError CowEvidence :=
  if value = "confirmed" then .ok .confirmed
  else if value = "not_used" then .ok .notUsed
  else .error invalidReceipt

/-- `decode_fallback`: the reason of a word. -/
def decodeFallback (value : String) : Except PortError FallbackReason :=
  if value = "clone_unsupported_at_preflight" then .ok .cloneUnsupportedAtPreflight
  else if value = "clone_unavailable_at_runtime" then .ok .cloneUnavailableAtRuntime
  else .error invalidReceipt

/-- The fallback reason of a document: `null`, or one of the two words. -/
def decodeFallbackField (value : Json) : Except PortError (Option FallbackReason) :=
  match value.get? "fallback_reason" with
  | some .null => .ok none
  | some (.str reason) => (decodeFallback reason).map some
  | _ => .error invalidReceipt

/-- `byte.is_ascii_hexdigit()`, which accepts both cases. -/
def isHexDigit (c : Char) : Bool := (hexValue c).isSome

/-- How many failed attempts go with a fallback reason. -/
def attemptCountValid : Option FallbackReason → ℕ → Bool
  | none, count => count == 0
  | some .cloneUnsupportedAtPreflight, count => count == 0
  | some .cloneUnavailableAtRuntime, count => count == 1

/-- The shapes of a successful receipt: a clone without a fallback, or a full copy with one. -/
def successfulShape : MaterializationMode → MaterializerKind → CowEvidence →
    Option FallbackReason → Bool
  | .cowClone, .apfsFileClone, .confirmed, none => true
  | .cowClone, .apfsFileClone, .notUsed, none => true
  | .cowClone, .btrfsReflink, .confirmed, none => true
  | .cowClone, .btrfsReflink, .notUsed, none => true
  | .fullCopy, .fullCopy, .notUsed, some _ => true
  | _, _, _, _ => false

/-- `decode_final_summary`: the fields of a summary, and thirteen checks that the document is that
of a success on the expected volume. -/
def decodeFinalSummary (json : JsonLibrary) (version : ℤ) (document : String)
    (expectedVolume : VolumeId) : Except PortError FinalMaterializationSummary := do
  if version ≠ receiptSchemaVersion then
    throw (.new .unsupportedVersion "read final receipt schema version")
  let value ← match json.fromText document with
    | some value => pure value
    | none => throw (.new .invalidData "parse final receipt JSON")
  let requestedMode ← decodeMode (← field value "requested_mode")
  let effectiveMode ← decodeMode (← field value "effective_mode")
  let actualMode ← decodeMode (← field value "actual_mode")
  let adapter ← decodeAdapter (← field value "actual_adapter")
  let cow ← decodeCow (← field value "cow_evidence")
  let fallbackReason ← decodeFallbackField value
  let failedAttemptCount ← match (value.get? "failed_attempts").bind Json.asArray? with
    | some attempts => pure attempts.length
    | none => throw invalidReceipt
  let sourceDigest ← field value "source_manifest_digest"
  let targetDigest ← field value "target_manifest_digest"
  let volume := expectedVolume.toText
  let outcome ← field value "outcome"
  let sourceVolume ← field value "source_volume_id"
  let targetVolume ← field value "target_volume_id"
  let checks : List Bool :=
    [outcome == "succeeded",
      (value.get? "failure_kind").any Json.isNull,
      (value.get? "unconfirmed_staging").any Json.isNull,
      (value.pointer? ["rollback", "status"]).bind Json.asStr? == some "not_needed",
      sourceDigest == targetDigest,
      sourceDigest.utf8ByteSize == 64,
      sourceDigest.toList.all isHexDigit,
      sourceVolume == volume,
      targetVolume == volume,
      requestedMode == .cowClone,
      effectiveMode == actualMode,
      attemptCountValid fallbackReason failedAttemptCount,
      successfulShape actualMode adapter cow fallbackReason]
  if checks.contains false then throw invalidReceipt
  pure
    { requestedMode, effectiveMode, actualMode, adapter, cow, fallbackReason,
      failedAttemptCount }

end Metadata
end ThinWorkspace
