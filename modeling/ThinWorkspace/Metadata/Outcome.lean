/-
# What a returned call says about its row

`ThinWorkspace.Metadata.Change` bounds what a call may do; here is what it has
done when it returns.  Each specification speaks of the row `selectWorkspace`
finds under the identity, with the database as the call left it.
-/

import ThinWorkspace.Lib.Except
import ThinWorkspace.Metadata.Change

namespace ThinWorkspace
namespace Metadata

open ThinWorkspace.Core Lib Ports

/-- The row of an identity, as the store reads it. -/
def Database.Holds (db : Database) (workspaceId : WorkspaceId) (record : WorkspaceRecord) : Prop :=
  ∃ row, db.selectWorkspace workspaceId.toText = some row ∧ row.intoRecord = .ok record

/-! ### Row decoding, backwards

Decoding is taken apart from its result: a record that was decoded tells the columns it was
decoded from, one after the other. -/

/-- A field that is decoded is what its decoder returned. -/
theorem decoded_ok {ε α : Type} {operation : String} {r : Except ε α} {a : α}
    (h : decoded operation r = .ok a) : r = .ok a := by
  cases r with
  | ok b => cases h; rfl
  | error e => cases h

/-- So is a field whose decoder returns an option. -/
theorem decodedOption_ok {α : Type} {operation : String} {r : Option α} {a : α}
    (h : decodedOption operation r = .ok a) : r = some a := by
  cases r with
  | some b => cases h; rfl
  | none => cases h

/-- A record that is made has the reservation, the state and the code it was made of. -/
theorem WorkspaceRecord.new_ok {reservation : WorkspaceReservation} {state : WorkspaceState}
    {code : Option ErrorCode} {updatedAt : UnixMillis} {record : WorkspaceRecord}
    (h : WorkspaceRecord.new reservation state code updatedAt = .ok record) :
    record.reservation = reservation ∧ record.state = state ∧ record.lastErrorCode = code := by
  unfold WorkspaceRecord.new at h
  split at h
  · cases h
  · split at h
    · cases h
      exact ⟨rfl, rfl, rfl⟩
    · cases h

/-- A text that is read as a state is that state's text. -/
theorem WorkspaceState.asStr_of_fromStr {value : String} {state : WorkspaceState}
    (h : WorkspaceState.fromStr value = some state) : value = state.asStr := by
  unfold WorkspaceState.fromStr at h
  split at h
  · cases h; assumption
  · split at h
    · cases h; assumption
    · split at h
      · cases h; assumption
      · split at h
        · cases h; assumption
        · cases h

/-- A text that is read as a code is that code's text. -/
theorem ErrorCode.asStr_of_fromStr {value : String} {code : ErrorCode}
    (h : ErrorCode.fromStr value = some code) : value = code.asStr := by
  have := List.find?_some h
  exact (by simpa using this : code.asStr = value).symm

/-- The columns a decoded row must have had.  The columns are parsed one after another, so a record
has each of them in its place. -/
theorem WorkspaceRow.intoRecord_ok {row : WorkspaceRow} {record : WorkspaceRecord}
    (h : row.intoRecord = .ok record) :
    WorkspaceId.fromText row.workspaceId = .ok record.reservation.workspaceId ∧
      AbsolutePath.tryFromBytes row.targetPath = .ok record.reservation.targetPath ∧
      VolumeId.fromText row.targetVolumeId = some record.reservation.targetVolumeId ∧
      row.state = record.state.asStr ∧
      row.lastErrorCode = record.lastErrorCode.map ErrorCode.asStr := by
  unfold WorkspaceRow.intoRecord at h
  obtain ⟨workspaceId, hid, h⟩ := Fallible.bind_ok h
  obtain ⟨instanceId, _, h⟩ := Fallible.bind_ok h
  obtain ⟨name, _, h⟩ := Fallible.bind_ok h
  obtain ⟨sourcePath, _, h⟩ := Fallible.bind_ok h
  obtain ⟨targetPath, htarget, h⟩ := Fallible.bind_ok h
  obtain ⟨sourceVolumeId, _, h⟩ := Fallible.bind_ok h
  obtain ⟨targetVolumeId, hvolume, h⟩ := Fallible.bind_ok h
  obtain ⟨allowFullCopy, _, h⟩ := Fallible.bind_ok h
  obtain ⟨createdAt, _, h⟩ := Fallible.bind_ok h
  obtain ⟨state, hstate, h⟩ := Fallible.bind_ok h
  obtain ⟨code, hcode, h⟩ := Fallible.bind_ok h
  obtain ⟨updatedAt, _, h⟩ := Fallible.bind_ok h
  obtain ⟨hr, hs, hc⟩ := WorkspaceRecord.new_ok (decoded_ok h)
  rw [hr, hs, hc]
  refine ⟨decoded_ok hid, decoded_ok htarget, decodedOption_ok hvolume,
    WorkspaceState.asStr_of_fromStr (decodedOption_ok hstate), ?_⟩
  cases hrow : row.lastErrorCode with
  | none =>
    rw [hrow] at hcode
    cases hcode
    rfl
  | some value =>
    rw [hrow] at hcode
    change (decodedOption _ (ErrorCode.fromStr value)).map some = .ok code at hcode
    cases hd : decodedOption "decode Workspace error code" (ErrorCode.fromStr value) with
    | error e => rw [hd] at hcode; cases hcode
    | ok c =>
      rw [hd] at hcode
      cases hcode
      rw [Option.map_some, ErrorCode.asStr_of_fromStr (decodedOption_ok hd)]

/-! ### Reads

A read hands out what the database holds; an identity without a row gives no record and no
failure. -/

variable {c c' : Connection Database} {workspaceId : WorkspaceId}

/-- Reading a workspace changes nothing, and returns a record only if the database holds it.  The
query gives the row, if there is one, and the rest of the function parses it. -/
theorem readWorkspace_ok {found : Option WorkspaceRecord}
    (h : readWorkspace workspaceId c = .ok found c') :
    c'.data = c.data ∧ match found with
      | none => c.data.selectWorkspace workspaceId.toText = none
      | some record => c.data.Holds workspaceId record := by
  refine ⟨(reads_readWorkspace.ok h).symm, ?_⟩
  obtain ⟨c₁, h₁, h⟩ := Session.query_bind_ok h
  cases hrow : c.data.selectWorkspace workspaceId.toText with
  | none =>
    rw [hrow] at h
    obtain ⟨rfl, _⟩ := Session.pure_ok h
    rfl
  | some row =>
    rw [hrow] at h
    obtain ⟨h, _⟩ := Session.ofExcept_ok h
    cases hinto : row.intoRecord with
    | error e => rw [hinto] at h; cases h
    | ok record =>
      rw [hinto] at h
      cases h
      exact ⟨row, hrow, hinto⟩

/-! ### Guarded updates

A guarded update returns only behind an update that counted one row and a read of that row,
so the record it returns is the row as written, and the row before was in the expected
state.  The two public operations specialise this. -/

/-- With a primary key the row of an identity is the one the store reads. -/
theorem selectWorkspace_of_mem {db : Database} (hids : (db.workspaces.map (·.workspaceId)).Nodup)
    {row : WorkspaceRow} (hrow : row ∈ db.workspaces) :
    db.selectWorkspace row.workspaceId = some row := by
  cases hfound : db.selectWorkspace row.workspaceId with
  | none =>
    have := List.find?_eq_none.mp hfound row hrow
    simp at this
  | some found =>
    have hid : found.workspaceId = row.workspaceId := by
      simpa using List.find?_some hfound
    have hmem := List.mem_of_find?_eq_some hfound
    rw [Sql.eq_of_key_eq hids hmem hrow hid]

/-- With a primary key the receipt of an identity is the one the store reads. -/
theorem selectReceipt_of_mem {db : Database} (hids : (db.receipts.map (·.workspaceId)).Nodup)
    {stored : ReceiptRow} (hstored : stored ∈ db.receipts) :
    db.selectReceipt stored.workspaceId = some stored := by
  cases hfound : db.selectReceipt stored.workspaceId with
  | none =>
    have := List.find?_eq_none.mp hfound stored hstored
    simp at this
  | some found =>
    have hid : found.workspaceId = stored.workspaceId := by
      simpa using List.find?_some hfound
    rw [Sql.eq_of_key_eq hids (List.mem_of_find?_eq_some hfound) hstored hid]

/-- A row that is selected is a row with that identifier. -/
theorem selectWorkspace_mem {db : Database} {id : String} {row : WorkspaceRow}
    (h : db.selectWorkspace id = some row) : row ∈ db.workspaces ∧ row.workspaceId = id :=
  ⟨List.mem_of_find?_eq_some h, by simpa using List.find?_some h⟩

/-- An update that counts a row has written the row the store reads.  Keys are unique before and
after the update, so the row that was counted is the one that a lookup by the key finds. -/
theorem updateWorkspace_selected {db db' : Database}
    (hids : (db.workspaces.map (·.workspaceId)).Nodup) {id expected : String}
    {assign : WorkspaceRow → WorkspaceRow} {n : ℕ}
    (h : db.updateWorkspace id expected assign = .ok (n, db')) (hn : n ≠ 0) :
    ∃ row, db.selectWorkspace id = some row ∧ row.state = expected ∧
      db'.selectWorkspace id = some (assign row) := by
  obtain ⟨rows, hrows, rfl⟩ := updateWorkspace_ok h
  obtain ⟨hcount, -, hcheck⟩ := Sql.updateWhere_ok hrows
  obtain ⟨row, hrow, hcond⟩ := List.countP_pos_iff.mp (Nat.pos_of_ne_zero (hcount ▸ hn))
  have hids' : (rows.map (·.workspaceId)).Nodup := by
    rw [Sql.map_updateWhere hrows fun r hr => (checkUpdate_spec hr).1.symm]
    exact hids
  have hmem : assign row ∈ rows :=
    (Sql.mem_updateWhere hrows).mpr (.inr ⟨row, hrow, hcond, hcheck row hrow hcond, rfl⟩)
  have hkey := (checkUpdate_spec (hcheck row hrow hcond)).1
  simp only [Bool.and_eq_true, beq_iff_eq] at hcond
  obtain ⟨hid, hstate⟩ := hcond
  refine ⟨row, hid ▸ selectWorkspace_of_mem hids hrow, hstate, ?_⟩
  rw [← hid, hkey]
  exact @selectWorkspace_of_mem { db with workspaces := rows } hids' _ hmem

/-- **A returned guarded update.**  The record it returns is the row it wrote, from a row in the
expected state.  An update that counts no row ends in an error, and otherwise the row is read again
by its key. -/
theorem expectedUpdate_ok (hids : (c.data.workspaces.map (·.workspaceId)).Nodup)
    {expected : WorkspaceState} {operation : String}
    {assign : WorkspaceRow → WorkspaceRow} {record : WorkspaceRecord}
    (h : expectedUpdate workspaceId expected operation assign c = .ok record c') :
    ∃ row, c.data.selectWorkspace workspaceId.toText = some row ∧
      row.state = expected.asStr ∧
      c'.data.selectWorkspace workspaceId.toText = some (assign row) ∧
      (assign row).intoRecord = .ok record := by
  obtain ⟨changed, c₁, hupdate, h⟩ := Session.exec_bind_ok h
  unfold finishExpectedUpdate at h
  split at h
  · obtain ⟨found, c₂, _, h⟩ := Session.bind_ok h
    cases found <;> cases h
  · rename_i hchanged
    obtain ⟨found, c₂, hread, h⟩ := Session.bind_ok h
    obtain ⟨hdata, hfound⟩ := readWorkspace_ok hread
    cases found with
    | none => cases h
    | some read =>
      obtain ⟨_, h⟩ := Session.require_bind_ok h
      obtain ⟨hread, hc⟩ := Session.pure_ok h
      obtain ⟨row, hrow, hstate, hrow'⟩ := updateWorkspace_selected hids hupdate hchanged
      obtain ⟨row', hselect, hinto⟩ := hfound
      have hrow'' : row' = assign row := Option.some.inj (hselect.symm.trans hrow')
      exact ⟨row, hrow, hstate, by rw [hc, hdata, hrow'], by rw [← hrow'', hinto, hread]⟩

/-- **`begin_removal` returned**: the row is `deleting`.  A removal that is repeated from
`deleting` reads the row only; any other is a guarded update. -/
theorem beginRemoval_ok (hids : (c.data.workspaces.map (·.workspaceId)).Nodup)
    {expected : WorkspaceState} {mode : RemovalMode} {updatedAt : UnixMillis}
    {record : WorkspaceRecord}
    (h : beginRemoval workspaceId expected mode updatedAt c = .ok record c') :
    (∃ row, c.data.selectWorkspace workspaceId.toText = some row ∧ row.state = expected.asStr) ∧
      ∃ row, c'.data.selectWorkspace workspaceId.toText = some row ∧ row.state = "deleting" := by
  obtain ⟨next, hnext, h⟩ := Session.ofExcept_bind_ok h
  have htransition := WorkspaceState.transition_beginRemoval (decoded_ok hnext)
  split at h
  · rename_i hsame
    obtain ⟨found, c₁, hread, h⟩ := Session.bind_ok h
    obtain ⟨hdata, hfound⟩ := readWorkspace_ok hread
    cases found with
    | none => cases h
    | some read =>
      obtain ⟨hexpected, h⟩ := Session.require_bind_ok h
      obtain ⟨_, hc⟩ := Session.pure_ok h
      obtain ⟨row, hrow, hinto⟩ := hfound
      have hstate := (WorkspaceRow.intoRecord_ok hinto).2.2.2.1
      refine ⟨⟨row, hrow, by rw [hstate, hexpected]⟩, row, by rw [hc, hdata, hrow], ?_⟩
      rw [hstate, hexpected, ← hsame, htransition.1]
      rfl
  · obtain ⟨row, hrow, hstate, hrow', _⟩ := expectedUpdate_ok hids h
    exact ⟨⟨row, hrow, hstate⟩, _, hrow', rfl⟩

/-- **`record_failure` returned**: the row is in `error` with the code. -/
theorem recordFailure_ok (hids : (c.data.workspaces.map (·.workspaceId)).Nodup)
    {expected : WorkspaceState} {code : ErrorCode} {updatedAt : UnixMillis}
    {record : WorkspaceRecord}
    (h : recordFailure workspaceId expected code updatedAt c = .ok record c') :
    ∃ row, c'.data.selectWorkspace workspaceId.toText = some row ∧ row.state = "error" ∧
      row.lastErrorCode = some code.asStr := by
  obtain ⟨_, _, h⟩ := Session.ofExcept_bind_ok h
  obtain ⟨row, _, _, hrow', _⟩ := expectedUpdate_ok hids h
  exact ⟨_, hrow', rfl, rfl⟩

/-- However `record_failure` ends, a row that was not Ready is not.  A failure that is reported
leaves the row as it was, and a success writes it in `error`; in both cases it is not Ready. -/
theorem recordFailure_not_ready {expected : WorkspaceState} {code : ErrorCode}
    {updatedAt : UnixMillis} :
    Session.Leaves (fun db db' : Database => (db.workspaces.map (·.workspaceId)).Nodup →
        ∀ row, db.selectWorkspace workspaceId.toText = some row → row.state ≠ "ready" →
          ∃ row', db'.selectWorkspace workspaceId.toText = some row' ∧ row'.state ≠ "ready")
      (recordFailure workspaceId expected code updatedAt) := by
  refine recordFailure_leaves (fun _ _ row hrow hs => ⟨row, hrow, hs⟩)
    fun db n db' hupdate hids row hrow hs => ?_
  obtain ⟨hmem, hid⟩ := selectWorkspace_mem hrow
  obtain ⟨rows, hrows, rfl⟩ := updateWorkspace_ok hupdate
  have hids' : (rows.map (·.workspaceId)).Nodup := by
    rw [Sql.map_updateWhere hrows fun r hr => (checkUpdate_spec hr).1.symm]
    exact hids
  have hcases : ∃ row' ∈ rows, row'.workspaceId = workspaceId.toText ∧ row'.state ≠ "ready" := by
    obtain ⟨-, -, hcheck⟩ := Sql.updateWhere_ok hrows
    by_cases hcond : (row.workspaceId == workspaceId.toText && row.state == expected.asStr) = true
    · have hchecked := hcheck row hmem hcond
      refine ⟨_, (Sql.mem_updateWhere hrows).mpr (.inr ⟨row, hmem, hcond, hchecked, rfl⟩), ?_, ?_⟩
      · rw [← (checkUpdate_spec hchecked).1, hid]
      · show "error" ≠ "ready"
        decide
    · exact ⟨row, (Sql.mem_updateWhere hrows).mpr (.inl ⟨hmem, by simpa using hcond⟩), hid, hs⟩
  obtain ⟨row', hrow', hid', hs'⟩ := hcases
  refine ⟨row', ?_, hs'⟩
  rw [← hid']
  exact @selectWorkspace_of_mem { db with workspaces := rows } hids' _ hrow'

/-! ### Reservation and completion

The two operations that insert.  A returned reservation has its row, in `creating`; a
returned completion has passed the five checks on plan and receipt, and its receipt is the
row that a reader will find. -/

/-- **`reserve_workspace` returned**: the row is the reservation's, in `creating`.  A failed
insertion is classified into an error, and the answer is computed from the reservation, so a return
means that the row went in. -/
theorem reserveWorkspace_ok {installation : InstallationRecord}
    {reservation : WorkspaceReservation} {record : WorkspaceRecord}
    (h : reserveWorkspace installation reservation c = .ok record c') :
    c.data.insertWorkspace (reservationRow reservation) = .ok ((), c'.data) := by
  obtain ⟨_, h⟩ := Session.require_bind_ok h
  obtain ⟨_, c₁, hinsert, h⟩ := Session.bind_ok h
  obtain ⟨_, hc⟩ := Session.ofExcept_ok h
  rcases Session.handle_ok hinsert with hinsert | ⟨e, c₂, _, hclassify⟩
  · rw [hc]
    exact Session.exec_ok hinsert
  · -- A classified failure is always reported.
    cases e with
    | storage => cases hclassify
    | constraint =>
      obtain ⟨conflict, c₃, _, hclassify⟩ := Session.bind_ok hclassify
      cases conflict <;> cases hclassify

/-- The row of a reservation that was inserted. -/
theorem selectWorkspace_insertWorkspace {db db' : Database} {new : WorkspaceRow} {u : Unit}
    (h : db.insertWorkspace new = .ok (u, db')) :
    db'.selectWorkspace new.workspaceId = some new := by
  obtain ⟨rfl, hfresh, _⟩ := insertWorkspace_ok h
  have hnone : db.workspaces.find? (fun r => r.workspaceId == new.workspaceId) = none :=
    List.find?_eq_none.mpr fun r hr => by simpa using (hfresh r hr).1
  simp [Database.selectWorkspace, List.find?_append, hnone]

/-- The receipt row `complete_materialization` inserts: the printed document under the current
version. -/
def receiptRow (json : JsonLibrary) (workspaceId : WorkspaceId)
    (receipt : MaterializationReceipt) (recordedAt : UnixMillis) : ReceiptRow where
  workspaceId := workspaceId.toText
  receiptSchemaVersion := receiptSchemaVersion
  receiptJson := json.toText (finalReceiptJson receipt)
  recordedAt := recordedAt.get

/-- **`complete_materialization` returned**: the plan and the receipt passed the store's checks
against the reservation of a `creating` row, the row is Ready and the receipt is stored as the
encoder printed it.  The transaction is followed statement by statement: the row is read, the
receipt is checked and inserted, the row is updated and read again, and all of it is committed. -/
theorem completeMaterialization_ok (hids : (c.data.workspaces.map (·.workspaceId)).Nodup)
    {json : JsonLibrary} {plan : MaterializationPlan} {receipt : MaterializationReceipt}
    {recordedAt : UnixMillis} {record : WorkspaceRecord}
    (h : completeMaterialization json workspaceId plan receipt recordedAt c = .ok record c') :
    ∃ old before, c.data.selectWorkspace workspaceId.toText = some old ∧
      old.intoRecord = .ok before ∧ before.state = .creating ∧
      receiptAccepted before.reservation plan receipt = true ∧
      c'.data.selectWorkspace workspaceId.toText = some (old.stamped .ready none recordedAt) ∧
      (old.stamped .ready none recordedAt).intoRecord = .ok record ∧
      c'.data.receipts = c.data.receipts ++ [receiptRow json workspaceId receipt recordedAt] := by
  obtain ⟨c₁, c₂, h₁, h, h₂⟩ := Session.transaction_ok h
  obtain ⟨found, c₃, hread, h⟩ := Session.bind_ok h
  obtain ⟨hdata, hfound⟩ := readWorkspace_ok hread
  cases found with
  | none => cases h
  | some before =>
    obtain ⟨hcreating, h⟩ := Session.require_bind_ok h
    obtain ⟨_, _, h⟩ := Session.ofExcept_bind_ok h
    obtain ⟨haccepted, h⟩ := Session.require_bind_ok h
    obtain ⟨_, c₄, hinsert, h⟩ := Session.exec_bind_ok h
    obtain ⟨changed, c₅, hupdate, h⟩ := Session.exec_bind_ok h
    obtain ⟨hchanged, h⟩ := Session.require_bind_ok h
    obtain ⟨again, c₆, hagain, h⟩ := Session.bind_ok h
    obtain ⟨hdata₆, hfound₆⟩ := readWorkspace_ok hagain
    cases again with
    | none => cases h
    | some ready =>
      obtain ⟨hready, hc⟩ := Session.pure_ok h
      obtain ⟨hmid, -⟩ := insertReceipt_ok hinsert
      have hids₄ : (c₄.data.workspaces.map (·.workspaceId)).Nodup := by
        rw [hmid, hdata, h₁]
        exact hids
      obtain ⟨old, hold, _, hrow⟩ :=
        updateWorkspace_selected hids₄ hupdate (by rw [hchanged]; decide)
      obtain ⟨old', hold', hbefore⟩ := hfound
      obtain ⟨row, hselect, hinto⟩ := hfound₆
      have hrow' : row = old.stamped .ready none recordedAt :=
        Option.some.inj (hselect.symm.trans hrow)
      have hsame : old' = old := by
        have hkept : c₄.data.selectWorkspace workspaceId.toText =
            c₁.data.selectWorkspace workspaceId.toText := by
          rw [hmid, hdata]
          rfl
        exact Option.some.inj (hold'.symm.trans (hkept.symm.trans hold))
      have hfinal : c'.data = c₅.data := by rw [h₂, hc, hdata₆]
      refine ⟨old, before, ?_, hsame ▸ hbefore, hcreating, haccepted, ?_, ?_, ?_⟩
      · rw [← h₁, ← hsame]
        exact hold'
      · rw [hfinal, hrow]
      · rw [← hrow', hinto, hready]
      · obtain ⟨rows, _, hrows⟩ := updateWorkspace_ok hupdate
        rw [hfinal, hrows, hmid, hdata, h₁]
        rfl

end Metadata
end ThinWorkspace
