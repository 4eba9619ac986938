/-
# Stored receipts read back

`complete_materialization` prints a receipt that passed the store's checks, and
`decode_final_summary` accepts the print: the checks of the three layers (the
constructors of plan and receipt, the store, the decoder) fit together
(`decodeFinalSummary_stored`).  `Database.Readable` is the invariant this gives,
and with it neither `final_materialization` nor `inspect` fails on a reachable
database.

A JSON library that belongs to the program prints a receipt so that it parses
back; plans and receipts are values their constructors made.
-/

import ThinWorkspace.Core.Receipt
import ThinWorkspace.Metadata.Rows

namespace ThinWorkspace
namespace Metadata

open ThinWorkspace.Core Lib Ports

/-! ### Hexadecimal text

Digests are stored in hexadecimal, and the decoder asks of a digest its length and its
characters only.  Both follow from how a byte is written. -/

/-- Every byte is written as two hexadecimal digits, by induction on the bytes. -/
theorem length_hexChars (bytes : List UInt8) :
    (bytes.flatMap fun byte =>
      [hexDigit ⟨byte.toNat / 16 % 16, Nat.mod_lt _ (by decide)⟩,
        hexDigit ⟨byte.toNat % 16, Nat.mod_lt _ (by decide)⟩]).length = 2 * bytes.length := by
  induction bytes with
  | nil => rfl
  | cons byte bytes ih =>
    rw [List.flatMap_cons, List.length_append, ih]
    simp only [List.length_cons, List.length_nil]
    omega

/-- A hexadecimal text consists of hexadecimal digits, as the decoder asks of a digest. -/
theorem hex_isHexDigit (bytes : List UInt8) : (hex bytes).toList.all isHexDigit = true := by
  rw [List.all_eq_true]
  intro c hc
  rw [hex, String.toList_ofList, List.mem_flatMap] at hc
  obtain ⟨byte, _, hc⟩ := hc
  rcases List.mem_cons.mp hc with rfl | hc
  · rw [isHexDigit, hexValue_hexDigit]
    rfl
  · rw [List.mem_singleton.mp hc, isHexDigit, hexValue_hexDigit]
    rfl

/-- A hexadecimal digit is one byte, so that the length of a text is the number of its digits. -/
theorem utf8Size_hexDigit : ∀ d : Fin 16, (hexDigit d).utf8Size = 1 := by decide

/-- A text of characters of one byte has as many bytes as characters. -/
theorem utf8ByteSize_ofList {chars : List Char} (h : ∀ c ∈ chars, c.utf8Size = 1) :
    (String.ofList chars).utf8ByteSize = chars.length := by
  induction chars with
  | nil => rfl
  | cons c chars ih =>
    have hsplit : String.ofList (c :: chars) = String.singleton c ++ String.ofList chars := by
      rw [← String.toList_inj, String.toList_append]
      simp
    rw [hsplit, String.utf8ByteSize_append, String.utf8ByteSize_singleton,
      ih fun d hd => h d (List.mem_cons_of_mem _ hd), h c List.mem_cons_self, List.length_cons]
    omega

/-- A digest is printed as 64 bytes, the length that the decoder asks for. -/
theorem utf8ByteSize_hex (digest : Digest) : (hex digest.bytes).utf8ByteSize = 64 := by
  rw [hex, utf8ByteSize_ofList, length_hexChars, digest.length_bytes]
  intro c hc
  obtain ⟨byte, _, hc⟩ := List.mem_flatMap.mp hc
  rcases List.mem_cons.mp hc with rfl | hc
  · exact utf8Size_hexDigit _
  · rw [List.mem_singleton.mp hc]
    exact utf8Size_hexDigit _

/-! ### Fields

Each field of the document is decoded to what was encoded, by cases on the value.  An
optional value that is absent is a null, which the decoder asks for by itself. -/

section Fields

variable (receipt : MaterializationReceipt)

/-- A mode is read back from its text, case by case. -/
theorem decodeMode_modeText (mode : MaterializationMode) :
    decodeMode (modeText mode) = .ok mode := by
  cases mode <;> rfl

/-- An adapter is read back from its text, case by case. -/
theorem decodeAdapter_adapterText (adapter : MaterializerKind) :
    decodeAdapter (adapterText adapter) = .ok adapter := by
  cases adapter <;> rfl

/-- What is known of a clone is read back from its text. -/
theorem decodeCow_cowText {cow : CowEvidence} (h : cow ≠ .unknown) :
    decodeCow (cowText cow) = .ok cow := by
  cases cow with
  | confirmed => rfl
  | notUsed => rfl
  | unknown => exact absurd rfl h

/-- An optional text that is there is the field that the decoder reads. -/
theorem field_optional {T : Type} (text : T → String) {value : Json} {key : String}
    {found : Option T} {x : T}
    (hget : value.get? key = some (optional (fun t => .str (text t)) found))
    (hfound : found = some x) : field value key = .ok (text x) := by
  rw [field, hget, hfound]
  rfl

/-- An optional value that is not there is the null that the decoder asks for. -/
theorem isNull_optional {T : Type} {encode : T → Json} {value : Json} {key : String}
    {found : Option T} (hget : value.get? key = some (optional encode found))
    (hfound : found = none) : (value.get? key).any Json.isNull = true := by
  rw [hget, hfound]
  rfl

/-- The reason of a fallback is read back from a receipt, if it has one. -/
theorem decodeFallbackField_receipt :
    decodeFallbackField (finalReceiptJson receipt) = .ok receipt.fallbackReason := by
  have hfield : (finalReceiptJson receipt).get? "fallback_reason" =
      some (optional (fun r : FallbackReason => .str (fallbackText r)) receipt.fallbackReason) :=
    rfl
  rw [decodeFallbackField, hfield]
  cases receipt.fallbackReason with
  | none => rfl
  | some reason => cases reason <;> rfl

end Fields

/-! ### A successful receipt

`Reportable` is what the thirteen checks of the decoder ask of a receipt, in terms of the
receipt.  On a reportable receipt the decoder undoes the encoder. -/

/-- What the decoder asks of a receipt on a volume. -/
structure Reportable (receipt : MaterializationReceipt) (volume : VolumeId) : Prop where
  outcome : receipt.outcome = .succeeded
  failureKind : receipt.failureKind = none
  unconfirmedStaging : receipt.unconfirmedStaging = none
  rollback : receipt.rollback.status = .notNeeded
  digest : ∃ digest, receipt.sourceManifestDigest = some digest ∧
    receipt.targetManifestDigest = some digest
  volumes : receipt.sourceVolumeId = some volume ∧ receipt.targetVolumeId = some volume
  requested : receipt.requestedMode = .cowClone
  effective : receipt.effectiveMode = receipt.actualMode
  cow : receipt.cowEvidence ≠ .unknown
  attempts : attemptCountValid receipt.fallbackReason receipt.failedAttempts.length = true
  shape : successfulShape receipt.actualMode receipt.actualAdapter receipt.cowEvidence
    receipt.fallbackReason = true

/-- **The decoder undoes the encoder** on a receipt it asks nothing else of.  The decoder takes the
fields one by one, and each of them is the text that the encoder has put there. -/
theorem decodeFinalSummary_stored {json : JsonLibrary} {receipt : MaterializationReceipt}
    {volume : VolumeId} (hread : json.ReadsBack (finalReceiptJson receipt))
    (h : Reportable receipt volume) :
    decodeFinalSummary json receiptSchemaVersion (json.toText (finalReceiptJson receipt)) volume =
      .ok (summaryOf receipt) := by
  obtain ⟨digest, hsource, htarget⟩ := h.digest
  obtain ⟨hsourceVolume, htargetVolume⟩ := h.volumes
  have hrequested : field (finalReceiptJson receipt) "requested_mode" =
      .ok (modeText receipt.requestedMode) := rfl
  have heffective : field (finalReceiptJson receipt) "effective_mode" =
      .ok (modeText receipt.effectiveMode) := rfl
  have hactual : field (finalReceiptJson receipt) "actual_mode" =
      .ok (modeText receipt.actualMode) := rfl
  have hadapter : field (finalReceiptJson receipt) "actual_adapter" =
      .ok (adapterText receipt.actualAdapter) := rfl
  have hcow : field (finalReceiptJson receipt) "cow_evidence" =
      .ok (cowText receipt.cowEvidence) := rfl
  have houtcome : field (finalReceiptJson receipt) "outcome" =
      .ok (outcomeText receipt.outcome) := rfl
  have hattempts : ((finalReceiptJson receipt).get? "failed_attempts").bind Json.asArray? =
      some (receipt.failedAttempts.map failedAttemptJson) := rfl
  have hrollback : ((finalReceiptJson receipt).pointer? ["rollback", "status"]).bind Json.asStr? =
      some (rollbackStatusText receipt.rollback.status) := rfl
  have hsourceDigest : field (finalReceiptJson receipt) "source_manifest_digest" =
      .ok (hex digest.bytes) :=
    field_optional (fun d : TreeDigest => hex d.bytes) rfl hsource
  have htargetDigest : field (finalReceiptJson receipt) "target_manifest_digest" =
      .ok (hex digest.bytes) :=
    field_optional (fun d : TreeDigest => hex d.bytes) rfl htarget
  have hsourceField : field (finalReceiptJson receipt) "source_volume_id" = .ok volume.toText :=
    field_optional VolumeId.toText rfl hsourceVolume
  have htargetField : field (finalReceiptJson receipt) "target_volume_id" = .ok volume.toText :=
    field_optional VolumeId.toText rfl htargetVolume
  have hfailure : ((finalReceiptJson receipt).get? "failure_kind").any Json.isNull = true :=
    isNull_optional rfl h.failureKind
  have hstaging : ((finalReceiptJson receipt).get? "unconfirmed_staging").any Json.isNull =
      true := isNull_optional rfl h.unconfirmedStaging
  unfold decodeFinalSummary
  rw [hread.fromText_toText]
  simp only [ne_eq, not_true_eq_false, if_false, bind, Except.bind, pure, Except.pure,
    hrequested, heffective, hactual, hadapter, hcow, houtcome, hattempts, hrollback,
    hsourceDigest, htargetDigest, hsourceField, htargetField, hfailure, hstaging,
    decodeMode_modeText, decodeAdapter_adapterText, decodeCow_cowText h.cow,
    decodeFallbackField_receipt]
  rw [h.outcome, h.rollback, h.requested, h.effective, utf8ByteSize_hex, hex_isHexDigit,
    List.length_map, h.attempts, h.shape]
  simp [outcomeText, rollbackStatusText, summaryOf, h.requested, h.effective]

/-! ### Accepted receipts

The receipts that the store accepts are reportable.  The argument needs three layers: what
the constructors of plan and receipt guarantee, what the store checks before it stores, and
what the decoder asks; `Built` of a plan and `Built` of a receipt are the first. -/

/-- **Three layers agree.**  A plan and a receipt that their constructors made and the store
accepts are what the decoder asks for.  The store's checks compare the receipt with the plan and
the reservation, the constructors relate the fields of each, and together they say every part of
what is reportable. -/
theorem reportable_of_accepted {reservation : WorkspaceReservation} {plan : MaterializationPlan}
    {receipt : MaterializationReceipt} (hplan : plan.Built) (hreceipt : receipt.Built)
    (h : receiptAccepted reservation plan receipt = true) :
    Reportable receipt reservation.targetVolumeId := by
  unfold receiptAccepted at h
  simp only [Bool.and_eq_true, beq_iff_eq, Prod.mk.injEq, Option.isNone_iff_eq_none] at h
  obtain ⟨⟨⟨⟨⟨-, -, -, htarget⟩, -⟩, -, hrequested, heffective, hactual, hadapter, hsourceVolume,
    htargetVolume, hreason, hattempts⟩, ⟨⟨houtcome, hfailure⟩, hstaging⟩, hrollback⟩, hdigest⟩ := h
  obtain ⟨hsome, hsame⟩ := hdigest
  obtain ⟨digest, hd⟩ := Option.isSome_iff_exists.mp hsome
  obtain ⟨hplanRequested, hplanVolume, hshape⟩ := hplan.cases
  have hsuccess := hreceipt.successful houtcome
  have hcow : receipt.cowEvidence ≠ .unknown := by
    rcases hsuccess with ⟨_, _, hc | hc⟩ | ⟨_, _, hc⟩ <;> rw [hc] <;> decide
  refine ⟨houtcome, hfailure, hstaging, hrollback, ⟨digest, hd, hsame ▸ hd⟩, ⟨?_, ?_⟩,
    by rw [hrequested, hplanRequested], by rw [heffective, hactual], hcow, ?_, ?_⟩
  · rw [hsourceVolume, hplanVolume, htarget]
  · rw [htargetVolume, htarget]
  · rw [hreason, hattempts]
    rcases hshape with ⟨_, _, hr, ha⟩ | ⟨_, _, ⟨hr, ha⟩ | ⟨hr, ha⟩⟩ <;> rw [hr, ha] <;> rfl
  · rw [hreason]
    rcases hshape with ⟨hmode, _, hr, _⟩ | ⟨hmode, _, hr⟩
    · -- A clone has no fallback behind it.
      rcases hsuccess with ⟨hm, ha, hc⟩ | ⟨hm, _⟩
      · rw [hr, hm]
        cases hk : receipt.actualAdapter with
        | fullCopy => exact absurd hk ha
        | apfsFileClone => rcases hc with hc | hc <;> rw [hc] <;> rfl
        | btrfsReflink => rcases hc with hc | hc <;> rw [hc] <;> rfl
      · rw [hactual, hmode] at hm
        cases hm
    · -- A full copy has one.
      rcases hsuccess with ⟨hm, _⟩ | ⟨hm, ha, hc⟩
      · rw [hactual, hmode] at hm
        cases hm
      · rw [hm, ha, hc]
        rcases hr with ⟨hr, _⟩ | ⟨hr, _⟩ <;> rw [hr] <;> rfl

/-! ### The invariant

A receipt comes into the table by one statement of one operation, and only a statement that
adds no receipt touches the row otherwise.  So the readability of all receipts is an
invariant, where the calls bring plans and receipts that the program can make. -/

/-- A call whose plan and receipt are values of the program, printed by a library
that parses its own prints. -/
def Call.Faithful (json : JsonLibrary) : Call → Prop
  | .completeMaterialization _ plan receipt _ =>
    plan.Built ∧ receipt.Built ∧ json.ReadsBack (finalReceiptJson receipt)
  | _ => True

/-- The stored document says the summary of a row on the volume. -/
def ReceiptRow.Tells (json : JsonLibrary) (stored : ReceiptRow) (volumeText : String)
    (summary : FinalMaterializationSummary) : Prop :=
  ∃ volume, VolumeId.fromText volumeText = some volume ∧
    decodeFinalSummary json stored.receiptSchemaVersion stored.receiptJson volume = .ok summary

/-- Every receipt of an active row decodes, for the volume of that row. -/
def Database.Readable (json : JsonLibrary) (db : Database) : Prop :=
  ∀ row ∈ db.workspaces, ∀ stored ∈ db.receipts, stored.workspaceId = row.workspaceId →
    ∃ summary, stored.Tells json row.targetVolumeId summary

variable {json : JsonLibrary} {installation : InstallationRecord} {db db' : Database}

/-- A statement that adds no receipt: what is stored afterwards was stored before. -/
def KeepsReceipts (db db' : Database) : Prop := ∀ stored ∈ db'.receipts, stored ∈ db.receipts

/-- An update of the rows adds no receipt, since it writes another table. -/
theorem updateWorkspace_keepsReceipts {id expected : String} {assign : WorkspaceRow → WorkspaceRow}
    {n : ℕ} (h : db.updateWorkspace id expected assign = .ok (n, db')) :
    KeepsReceipts db db' := by
  obtain ⟨rows, _, rfl⟩ := updateWorkspace_ok h
  exact fun _ hstored => hstored

/-- Where a receipt comes from: it was there, or the call is the completion that stored it.  Of all
calls only a completion inserts a receipt, and only where it returned. -/
theorem Call.receipt_origin {call : Call} {faults : List Bool} (hdb : db.Consistent)
    {stored : ReceiptRow} (h : stored ∈ (call.run json installation faults db).receipts) :
    stored ∈ db.receipts ∨ ∃ id plan receipt now record c,
      call = .completeMaterialization id plan receipt now ∧
      Metadata.completeMaterialization json id plan receipt now ⟨db, faults⟩ = .ok record c ∧
      call.run json installation faults db = c.data ∧
      stored = receiptRow json id receipt now := by
  have hrefl : ∀ db, KeepsReceipts db db := fun _ _ hstored => hstored
  cases call with
  | reserveWorkspace reservation =>
    refine .inl (reserveWorkspace_leaves hrefl (fun db db' hinsert => ?_) ⟨db, faults⟩ stored h)
    obtain ⟨rfl, _⟩ := insertWorkspace_ok hinsert
    exact fun _ hstored => hstored
  | recordFailure id expected code now =>
    exact .inl (recordFailure_leaves hrefl
      (fun _ _ _ hupdate => updateWorkspace_keepsReceipts hupdate) ⟨db, faults⟩ stored h)
  | beginRemoval id expected mode now =>
    exact .inl (beginRemoval_leaves hrefl
      (fun _ _ _ hupdate => updateWorkspace_keepsReceipts hupdate) ⟨db, faults⟩ stored h)
  | completeDeletion id instanceId now =>
    refine .inl (completeDeletion_leaves hrefl (fun db mid db' tombstone _ hinsert hdelete => ?_)
      ⟨db, faults⟩ stored h)
    obtain ⟨rfl, _⟩ := insertTombstone_ok hinsert
    obtain ⟨_, _, _, hreceipts, _⟩ := deleteWorkspace_ok hdelete
    exact fun stored hstored => ((hreceipts stored).mp hstored).1
  | completeMaterialization id plan receipt now =>
    cases hrun : Metadata.completeMaterialization json id plan receipt now ⟨db, faults⟩ with
    | error e c =>
      have hdata : c.data = db := Session.transaction_error hrun
      simp only [Call.run, Session.dataAfter, hrun, hdata] at h
      exact .inl h
    | ok record c =>
      obtain ⟨_, _, _, _, _, _, _, _, hreceipts⟩ :=
        completeMaterialization_ok hdb.ids_nodup hrun
      have hdata : Call.run json installation (.completeMaterialization id plan receipt now)
          faults db = c.data := by
        simp only [Call.run, Session.dataAfter, hrun]
      rw [hdata, hreceipts] at h
      rcases List.mem_append.mp h with h | h
      · exact .inl h
      · exact .inr ⟨id, plan, receipt, now, record, c, rfl, hrun, hdata, List.mem_singleton.mp h⟩

/-- The row a completion leaves says its receipt's summary. -/
theorem completeMaterialization_tells {id : WorkspaceId} {plan : MaterializationPlan}
    {receipt : MaterializationReceipt} {now : UnixMillis} {record : WorkspaceRecord}
    {c c' : Connection Database} (hids : (c.data.workspaces.map (·.workspaceId)).Nodup)
    (hfaithful : Call.Faithful json (.completeMaterialization id plan receipt now))
    (h : completeMaterialization json id plan receipt now c = .ok record c') :
    ∃ row, c'.data.selectWorkspace id.toText = some row ∧ row.state = "ready" ∧
      row.intoRecord = .ok record ∧
      (receiptRow json id receipt now).Tells json row.targetVolumeId (summaryOf receipt) := by
  obtain ⟨hplan, hreceipt, hread⟩ := hfaithful
  obtain ⟨old, before, _, hbefore, _, haccepted, hrow, hinto, _⟩ :=
    completeMaterialization_ok hids h
  have hvolume := (WorkspaceRow.intoRecord_ok hbefore).2.2.1
  exact ⟨_, hrow, rfl, hinto, _, hvolume,
    decodeFinalSummary_stored hread (reportable_of_accepted hplan hreceipt haccepted)⟩

/-- **One step.**  A faithful call keeps every receipt readable.  An old receipt belongs to the row
it had, whose volume never changes, and a new one is readable because it is faithful. -/
theorem Call.readable {call : Call} {faults : List Bool} (hdb : db.Consistent)
    (hfaithful : call.Faithful json) (h : db.Readable json) :
    (call.run json installation faults db).Readable json := by
  intro row hrow stored hstored hid
  have hconsistent := (call.run_change json installation faults db).consistent hdb
  rcases call.receipt_origin hdb hstored with hold | ⟨id, plan, receipt, now, record, c, rfl, hrun,
    hdata, rfl⟩
  · obtain ⟨active, hactive, hactiveId⟩ := hdb.receipt_active stored hold
    rcases (call.run_change json installation faults db).row_origin hrow with
      ⟨old, hmem, holdId, _, hvolume⟩ | ⟨hfresh, _⟩
    · rw [← hvolume]
      exact h old hmem stored hold (hid.trans holdId.symm)
    · exact absurd (hactiveId.trans hid) (hfresh active hactive)
  · obtain ⟨ready, hready, _, _, htells⟩ :=
      completeMaterialization_tells hdb.ids_nodup hfaithful hrun
    rw [hdata] at hrow hconsistent
    have hsame : row = ready := by
      have := selectWorkspace_of_mem hconsistent.ids_nodup hrow
      rw [← hid] at this
      exact Option.some.inj (this.symm.trans hready)
    exact ⟨_, hsame ▸ htells⟩

/-! ### Persistence

What a stored receipt says is final: the row of the receipt is never rewritten, its identity
is never given out again, and a receipt leaves only with its workspace.  `Database.Shows`
collects this for one identity. -/

/-- A receipt stays as long as its row is active.  Only a deletion removes receipts, and then only
the one of the row that goes. -/
theorem Change.receipt_kept (h : Change db db') (hdb : db.Consistent) {stored : ReceiptRow}
    (hstored : stored ∈ db.receipts) {row : WorkspaceRow} (hrow : row ∈ db'.workspaces)
    (hid : row.workspaceId = stored.workspaceId) : stored ∈ db'.receipts := by
  cases h with
  | unchanged => exact hstored
  | reserved insert =>
    obtain ⟨rfl, _⟩ := insertWorkspace_ok insert
    exact hstored
  | completed insert update =>
    obtain ⟨rfl, _⟩ := insertReceipt_ok insert
    obtain ⟨rows, _, rfl⟩ := updateWorkspace_ok update
    exact List.mem_append_left _ hstored
  | left leaves update =>
    obtain ⟨rows, _, rfl⟩ := updateWorkspace_ok update
    exact hstored
  | deleted insert delete =>
    obtain ⟨rfl, _⟩ := insertTombstone_ok insert
    obtain ⟨_, _, hrows, hreceipts, _⟩ := deleteWorkspace_ok delete
    obtain ⟨hmem, hkept⟩ := (hrows row).mp hrow
    refine (hreceipts stored).mpr ⟨hstored, fun gone hgone hdeleting he => ?_⟩
    -- The row that goes would be the one that stays.
    have hsame := Sql.eq_of_key_eq hdb.ids_nodup hgone hmem (he.trans hid.symm)
    rw [hsame, hkept] at hdeleting
    cases hdeleting

/-- The identity is in use or was: no reservation can have it again. -/
def Database.Claimed (db : Database) (id : String) : Prop :=
  (∃ row ∈ db.workspaces, row.workspaceId = id) ∨ ∃ t ∈ db.tombstones, t.workspaceId = id

/-- An identity that was ever in use stays claimed.  A row stays or goes behind its tombstone, and
a tombstone is never removed. -/
theorem Change.claimed (h : Change db db') {id : String} (hid : db.Claimed id) :
    db'.Claimed id := by
  rcases hid with ⟨row, hrow, rfl⟩ | ⟨t, ht, rfl⟩
  case inr => exact .inr ⟨t, h.tombstone_mem ht, rfl⟩
  have hupdated : ∀ {mid db' : Database} {id expected : String}
      {assign : WorkspaceRow → WorkspaceRow} {n : ℕ},
      mid.updateWorkspace id expected assign = .ok (n, db') → row ∈ mid.workspaces →
        db'.Claimed row.workspaceId := by
    intro mid db' id expected assign n hupdate hmem
    obtain ⟨rows, hrows, rfl⟩ := updateWorkspace_ok hupdate
    have hids : rows.map (·.workspaceId) = mid.workspaces.map (·.workspaceId) :=
      Sql.map_updateWhere hrows fun r hr => (checkUpdate_spec hr).1.symm
    obtain ⟨row', hrow', he⟩ := List.mem_map.mp (hids ▸ List.mem_map_of_mem hmem)
    exact .inl ⟨row', hrow', he⟩
  cases h with
  | unchanged => exact .inl ⟨row, hrow, rfl⟩
  | reserved insert =>
    obtain ⟨rfl, _⟩ := insertWorkspace_ok insert
    exact .inl ⟨row, List.mem_append_left _ hrow, rfl⟩
  | completed insert update =>
    obtain ⟨rfl, _⟩ := insertReceipt_ok insert
    exact hupdated update hrow
  | left leaves update => exact hupdated update hrow
  | @deleted tombstone _ _ insert delete =>
    obtain ⟨rfl, _⟩ := insertTombstone_ok insert
    obtain ⟨_, htomb, hrows, _⟩ := deleteWorkspace_ok delete
    by_cases hgone : Database.isDeleting tombstone.workspaceId row = true
    · simp only [Database.isDeleting, Bool.and_eq_true, beq_iff_eq] at hgone
      refine .inr ⟨tombstone, ?_, hgone.1.symm⟩
      rw [htomb]
      exact List.mem_append_right _ (List.mem_singleton_self _)
    · exact .inl ⟨row, (hrows row).mpr ⟨hrow, by simpa using hgone⟩, rfl⟩

/-- The receipt is stored, and says the summary, for as long as its row is active. -/
structure Database.Shows (json : JsonLibrary) (stored : ReceiptRow)
    (summary : FinalMaterializationSummary) (db : Database) : Prop where
  consistent : db.Consistent
  claimed : db.Claimed stored.workspaceId
  tells : ∀ row ∈ db.workspaces, row.workspaceId = stored.workspaceId →
    stored ∈ db.receipts ∧ stored.Tells json row.targetVolumeId summary

/-- **One step.**  What a stored receipt says is final. -/
theorem Change.shows (h : Change db db') {stored : ReceiptRow}
    {summary : FinalMaterializationSummary} (hdb : db.Shows json stored summary) :
    db'.Shows json stored summary := by
  refine ⟨h.consistent hdb.consistent, h.claimed hdb.claimed, fun row hrow hid => ?_⟩
  rcases h.row_origin hrow with ⟨old, hold, holdId, _, hvolume⟩ | ⟨hfresh, reservation, hinsert, he⟩
  · obtain ⟨hstored, htells⟩ := hdb.tells old hold (holdId.trans hid)
    exact ⟨h.receipt_kept hdb.consistent hstored hrow hid, hvolume ▸ htells⟩
  · obtain ⟨_, _, _, _, _, _, htomb⟩ := insertWorkspace_ok hinsert
    rcases hdb.claimed with ⟨row', hrow', hid'⟩ | ⟨t, ht, hid'⟩
    · exact absurd (hid'.trans hid.symm) (hfresh row' hrow')
    · rw [he] at hid
      exact absurd (hid'.trans hid.symm) (htomb t ht)

/-! ### Reading

On a readable database both readers go through without a fault, and return for an identity
the summary of its receipt (`reports_of_tells`).  The sessions are evaluated, since here a
run has to be shown. -/

section Reading

variable {α β : Type}

/-- A session goes on from the connection at which its first part returned. -/
theorem run_bind {x : Store α} {f : α → Store β} {a : α} {c c' : Connection Database}
    (h : x c = .ok a c') : (x >>= f) c = f a c' := by
  show EStateM.bind x f c = _
  rw [EStateM.bind, h]

/-- Without a fault a query returns what it reads. -/
theorem run_query {onFault : PortError} {read : Database → α} :
    (Session.query onFault read : Store α) ⟨db, []⟩ = .ok (read db) ⟨db, []⟩ :=
  rfl

/-- A transaction without faults runs its body: what the body leaves is what is committed. -/
theorem run_transaction {onBegin onCommit : PortError} {body : Store α} {a : α}
    (h : body ⟨db, []⟩ = .ok a ⟨db, []⟩) :
    Session.transaction onBegin onCommit body ⟨db, []⟩ = .ok a ⟨db, []⟩ := by
  simp [Session.transaction, Session.nextFault, bind, EStateM.bind, h, pure, EStateM.pure]

/-- A stored receipt is read as what it says. -/
theorem readFinalMaterialization_run {id : WorkspaceId} {volume : VolumeId} {stored : ReceiptRow}
    {summary : FinalMaterializationSummary}
    (hstored : db.selectReceipt id.toText = some stored)
    (htells : decodeFinalSummary json stored.receiptSchemaVersion stored.receiptJson volume =
      .ok summary) :
    readFinalMaterialization json id volume ⟨db, []⟩ = .ok (some summary) ⟨db, []⟩ := by
  rw [readFinalMaterialization, run_bind run_query, hstored]
  show Session.ofExcept _ _ = _
  rw [htells]
  rfl

/-- A workspace without a receipt has no final materialization. -/
theorem readFinalMaterialization_none {id : WorkspaceId} {volume : VolumeId}
    (hstored : db.selectReceipt id.toText = none) :
    readFinalMaterialization json id volume ⟨db, []⟩ = .ok none ⟨db, []⟩ := by
  rw [readFinalMaterialization, run_bind run_query, hstored]
  rfl

/-- What the two readers return of an active row whose receipt says the summary.  The receipt is
found by its identifier, which is its key, and decodes by assumption. -/
theorem finalMaterialization_run {record : WorkspaceRecord} {stored : ReceiptRow}
    {summary : FinalMaterializationSummary} (hdb : db.Consistent)
    (hrow : recordRow record ∈ db.workspaces) (hstored : stored ∈ db.receipts)
    (hid : stored.workspaceId = record.reservation.workspaceId.toText)
    (htells : stored.Tells json (recordRow record).targetVolumeId summary) :
    readFinalMaterialization json record.reservation.workspaceId
        record.reservation.targetVolumeId ⟨db, []⟩ = .ok (some summary) ⟨db, []⟩ ∧
      finalMaterialization json record.reservation.workspaceId ⟨db, []⟩ =
        .ok (some summary) ⟨db, []⟩ := by
  obtain ⟨volume, hvolume, hdecode⟩ := htells
  have hvolume' : volume = record.reservation.targetVolumeId := by
    have := VolumeId.fromText_toText record.reservation.targetVolumeId
    exact Option.some.inj (hvolume.symm.trans this)
  have hselect : db.selectWorkspace record.reservation.workspaceId.toText =
      some (recordRow record) := selectWorkspace_of_mem hdb.ids_nodup hrow
  have hreceipt : db.selectReceipt record.reservation.workspaceId.toText = some stored :=
    hid ▸ selectReceipt_of_mem hdb.receipt_ids_nodup hstored
  have hfinal := readFinalMaterialization_run hreceipt (hvolume' ▸ hdecode)
  have hread : readWorkspace record.reservation.workspaceId ⟨db, []⟩ =
      .ok (some record) ⟨db, []⟩ := by
    rw [readWorkspace, run_bind run_query, hselect]
    show Session.ofExcept _ _ = _
    rw [intoRecord_recordRow]
    rfl
  refine ⟨hfinal, ?_⟩
  rw [finalMaterialization, run_bind hread]
  exact hfinal

/-- The summaries of listed records, on a database whose receipts decode.  The induction is on the
records; a record without a receipt adds nothing. -/
theorem readSummaries_run (hdb : db.Consistent) (hreadable : db.Readable json)
    {records : List WorkspaceRecord} (h : ∀ record ∈ records, recordRow record ∈ db.workspaces) :
    ∃ summaries, readSummaries json records ⟨db, []⟩ = .ok summaries ⟨db, []⟩ ∧
      ∀ record ∈ records, ∀ stored ∈ db.receipts, ∀ summary,
        stored.workspaceId = record.reservation.workspaceId.toText →
        stored.Tells json (recordRow record).targetVolumeId summary →
          (record.reservation.workspaceId, summary) ∈ summaries := by
  induction records with
  | nil => exact ⟨[], rfl, fun _ hrecord => absurd hrecord List.not_mem_nil⟩
  | cons record records ih =>
    obtain ⟨summaries, hrun, hlisted⟩ := ih fun r hr => h r (List.mem_cons_of_mem _ hr)
    have hrow := h record List.mem_cons_self
    cases hreceipt : db.selectReceipt record.reservation.workspaceId.toText with
    | none =>
      have hmissing : ∀ stored ∈ db.receipts,
          stored.workspaceId ≠ record.reservation.workspaceId.toText := by
        intro stored hstored he
        have := List.find?_eq_none.mp hreceipt stored hstored
        simp [he] at this
      have hready : record.state ≠ .ready := by
        intro hs
        have hstate : (recordRow record).state = "ready" := by
          show record.state.asStr = _
          rw [hs]
          rfl
        obtain ⟨stored, hstored, he⟩ := hdb.ready_receipt _ hrow hstate
        exact hmissing stored hstored he
      refine ⟨summaries, ?_, fun r hr stored hstored summary he htells => ?_⟩
      · rw [readSummaries, run_bind (readFinalMaterialization_none hreceipt)]
        show (Session.require _ _ >>= fun _ => readSummaries json records) _ = _
        rw [Session.require, if_pos hready]
        exact hrun
      · rcases List.mem_cons.mp hr with rfl | hr
        · exact absurd he (hmissing stored hstored)
        · exact hlisted r hr stored hstored summary he htells
    | some stored =>
      have hstored : stored ∈ db.receipts := List.mem_of_find?_eq_some hreceipt
      have hid : stored.workspaceId = record.reservation.workspaceId.toText := by
        simpa using List.find?_some hreceipt
      obtain ⟨summary, htells⟩ := hreadable _ hrow stored hstored hid
      have hfinal := (finalMaterialization_run hdb hrow hstored hid htells).1
      refine ⟨(record.reservation.workspaceId, summary) :: summaries, ?_, ?_⟩
      · rw [readSummaries, run_bind hfinal]
        show (readSummaries json records >>= fun rest => pure (_ :: rest)) _ = _
        rw [run_bind hrun]
        rfl
      · intro r hr other hother summary' he htells'
        rcases List.mem_cons.mp hr with rfl | hr
        · have hsame := Sql.eq_of_key_eq hdb.receipt_ids_nodup hother hstored (he.trans hid.symm)
          subst hsame
          obtain ⟨volume, hvolume, hdecode⟩ := htells
          obtain ⟨volume', hvolume', hdecode'⟩ := htells'
          rw [Option.some.inj (hvolume'.symm.trans hvolume), hdecode] at hdecode'
          rw [Except.ok.inj hdecode']
          exact List.mem_cons_self
        · exact List.mem_cons_of_mem _ (hlisted r hr other hother summary' he htells')

/-- Both readers return the summary for the identity. -/
structure Database.Reports (json : JsonLibrary) (db : Database) (id : WorkspaceId)
    (summary : FinalMaterializationSummary) : Prop where
  final : finalMaterialization json id ⟨db, []⟩ = .ok (some summary) ⟨db, []⟩
  inspected : ∃ records summaries, inspect json ⟨db, []⟩ = .ok (records, summaries) ⟨db, []⟩ ∧
    (id, summary) ∈ summaries

/-- **Reading is total.**  An active row whose receipt says a summary is reported with it by both
readers.  The snapshot lists every active row and reads the summaries of those that are Ready, so
the row is among them. -/
theorem reports_of_tells (hdb : db.Consistent) (hencoded : db.Encoded)
    (hreadable : db.Readable json) {id : WorkspaceId} {row : WorkspaceRow}
    (hrow : row ∈ db.workspaces) (hid : row.workspaceId = id.toText) {stored : ReceiptRow}
    (hstored : stored ∈ db.receipts) (hstoredId : stored.workspaceId = id.toText)
    {summary : FinalMaterializationSummary}
    (htells : stored.Tells json row.targetVolumeId summary) : db.Reports json id summary := by
  obtain ⟨record, rfl⟩ := hencoded row hrow
  obtain rfl : record.reservation.workspaceId = id := WorkspaceId.toText_injective hid
  refine ⟨(finalMaterialization_run hdb hrow hstored hstoredId htells).2, ?_⟩
  let sorted := db.workspaces.mergeSort fun a b => decide (a.workspaceId ≤ b.workspaceId)
  have hmem : ∀ row, row ∈ sorted ↔ row ∈ db.workspaces := fun row => List.mem_mergeSort
  obtain ⟨records, hrecords⟩ : ∃ records : List WorkspaceRecord,
      sorted = records.map recordRow :=
    exists_records fun row hrow => hencoded row ((hmem row).mp hrow)
  have hmap : sorted.mapM WorkspaceRow.intoRecord = .ok records := by
    rw [hrecords, mapM_intoRecord]
  have hlisted : ∀ r ∈ records, recordRow r ∈ db.workspaces := fun r hr =>
    (hmem _).mp (hrecords ▸ List.mem_map_of_mem hr)
  obtain ⟨summaries, hrun, hsummaries⟩ := readSummaries_run hdb hreadable hlisted
  refine ⟨records, summaries, ?_, ?_⟩
  · refine run_transaction ?_
    have hread : readWorkspacesByWorkspaceId ⟨db, []⟩ = .ok records ⟨db, []⟩ := by
      rw [readWorkspacesByWorkspaceId, run_bind run_query]
      show Session.ofExcept (sorted.mapM WorkspaceRow.intoRecord) _ = _
      rw [hmap]
      rfl
    rw [run_bind hread, run_bind hrun]
    rfl
  · have hsorted : recordRow record ∈ records.map recordRow := hrecords ▸ (hmem _).mpr hrow
    obtain ⟨r, hr, he⟩ := List.mem_map.mp hsorted
    have hsame : r = record := by
      have hread : (recordRow record).intoRecord = .ok r := he ▸ intoRecord_recordRow r
      exact recordRow_unique hread
    subst hsame
    exact hsummaries r hr stored hstored summary hstoredId htells

end Reading

/-! ### Runs

The run lemma is the induction over calls.  A completion starts what `Database.Shows` says,
and any calls behind it keep it. -/

/-- **The run.**  After faithful calls every receipt decodes, by induction on the calls: one call
keeps it, and the next finds it. -/
theorem readable_runCalls {calls : List (Call × List Bool)}
    (hcalls : ∀ call ∈ calls, call.1.Faithful json) (hdb : db.Consistent)
    (h : db.Readable json) : (runCalls json installation db calls).Readable json := by
  induction calls generalizing db with
  | nil => exact h
  | cons call calls ih =>
    have hfaithful := hcalls call List.mem_cons_self
    exact ih (fun c hc => hcalls c (List.mem_cons_of_mem _ hc))
      ((call.1.run_change json installation call.2 db).consistent hdb)
      (Call.readable hdb hfaithful h)

/-- Nothing is stored yet, so there is no receipt that could fail to decode. -/
theorem readable_initialized : (Database.initialized installation).Readable json :=
  fun _ hrow => absurd hrow List.not_mem_nil

/-- What a completion stored is shown from then on. -/
theorem completeMaterialization_shows {id : WorkspaceId} {plan : MaterializationPlan}
    {receipt : MaterializationReceipt} {now : UnixMillis} {record : WorkspaceRecord}
    {faults : List Bool} {c : Connection Database} (hdb : db.Consistent)
    (hfaithful : Call.Faithful json (.completeMaterialization id plan receipt now))
    (h : completeMaterialization json id plan receipt now ⟨db, faults⟩ = .ok record c) :
    c.data.Shows json (receiptRow json id receipt now) (summaryOf receipt) := by
  have hconsistent : c.data.Consistent :=
    ((completeMaterialization_change json id plan receipt now).ok h).consistent hdb
  obtain ⟨ready, hready, _, _, htells⟩ :=
    completeMaterialization_tells hdb.ids_nodup hfaithful h
  obtain ⟨_, _, _, _, _, _, _, _, hreceipts⟩ := completeMaterialization_ok hdb.ids_nodup h
  obtain ⟨hmem, hid⟩ := selectWorkspace_mem hready
  refine ⟨hconsistent, .inl ⟨ready, hmem, hid⟩, fun row hrow he => ⟨?_, ?_⟩⟩
  · rw [hreceipts]
    exact List.mem_append_right _ (List.mem_singleton_self _)
  · rw [Sql.eq_of_key_eq hconsistent.ids_nodup hrow hmem (he.trans hid.symm)]
    exact htells

/-- **What is shown is reported**, after any later faithful calls. -/
theorem Database.Shows.reports {stored : ReceiptRow} {summary : FinalMaterializationSummary}
    (h : db.Shows json stored summary) (hencoded : db.Encoded) (hreadable : db.Readable json)
    {id : WorkspaceId} (hid : stored.workspaceId = id.toText) {later : List (Call × List Bool)}
    (hlater : ∀ call ∈ later, call.1.Faithful json) {row : WorkspaceRow}
    (hrow : row ∈ (runCalls json installation db later).workspaces)
    (hrowId : row.workspaceId = id.toText) :
    (runCalls json installation db later).Reports json id summary := by
  have hshown : (runCalls json installation db later).Shows json stored summary :=
    runCalls_preserves json installation (fun _ _ hdb hc => hc.shows hdb) h later
  have hencoded' : (runCalls json installation db later).Encoded :=
    runCalls_preserves json installation (fun _ _ hdb hc => hc.encoded hdb) hencoded later
  obtain ⟨hstored, htells⟩ := hshown.tells row hrow (hrowId.trans hid.symm)
  exact reports_of_tells hshown.consistent hencoded'
    (readable_runCalls hlater h.consistent hreadable) hrow hrowId hstored hid htells

end Metadata
end ThinWorkspace
