/-
# The two state machines agree

Source: `WorkspaceState::transition` in `crates/thinws-core/src/workspace.rs`
against the triggers of `crates/thinws-metadata-sqlite/src/schema_v2.sql`.  The
state machine is written twice, as a decision table over states and events and as
predicates over the old and the new columns of an `UPDATE`.

`Request` is an event with the arguments of the store operation that carries it
out.  `Request.accepted` goes the one way: what the table allows, no `CHECK` and
no trigger refuses, and the store moves the addressed row as the table says and
nothing else.  `Request.refused` goes the other way.  `Change.keeps` is the third
part, that no change touches the columns that identify a row.
-/

import ThinWorkspace.Metadata.Rows

namespace ThinWorkspace
namespace Metadata

open ThinWorkspace.Core Lib Ports

/-! ### Requests

A request is an event with the arguments of its operation, and `Request.effect` is what the
decision table makes of the database.  It is the specification that the operations are
compared with. -/

/-- An event of the state machine with the arguments its store operation takes. -/
inductive Request where
  | materialized (plan : MaterializationPlan) (receipt : MaterializationReceipt)
  | failed (code : ErrorCode)
  | beginRemoval (mode : RemovalMode)

namespace Request

/-- The event that a request is for the state machine. -/
def event : Request → WorkspaceEvent
  | .materialized _ _ => .materialized
  | .failed _ => .failed
  | .beginRemoval mode => .beginRemoval mode

/-- The store operation of the event, on a row the caller expects in `expected`. -/
def operation (json : JsonLibrary) (id : WorkspaceId) (expected : WorkspaceState)
    (now : UnixMillis) : Request → Store WorkspaceRecord
  | .materialized plan receipt => completeMaterialization json id plan receipt now
  | .failed code => recordFailure id expected code now
  | .beginRemoval mode => Metadata.beginRemoval id expected mode now

/-- The error code the row has afterwards; only a failure leaves one. -/
def code : Request → Option ErrorCode
  | .failed code => some code
  | _ => none

/-- A receipt is valid when it passes the store's checks against the row and its
print is a JSON text; an error code and a removal mode always are. -/
def Valid (json : JsonLibrary) (reservation : WorkspaceReservation) : Request → Prop
  | .materialized plan receipt => receiptAccepted reservation plan receipt = true ∧
      json.jsonValid (json.toText (finalReceiptJson receipt)) = true
  | _ => True

/-- The receipts the request stores: one on success of a materialization, and none otherwise. -/
def receipts (json : JsonLibrary) (id : WorkspaceId) (now : UnixMillis) :
    Request → List ReceiptRow
  | .materialized _ receipt => [receiptRow json id receipt now]
  | _ => []

end Request

/-- The database with the row of `id` moved to `state`, and no other row touched. -/
def Database.moved (db : Database) (id : WorkspaceId) (state : WorkspaceState)
    (code : Option ErrorCode) (now : UnixMillis) : Database :=
  { db with workspaces := db.workspaces.map fun row =>
      if row.workspaceId = id.toText then row.stamped state code now else row }

/-- What the decision table makes of the database: a transition to the same state
writes nothing, any other moves the row. -/
def Request.effect (json : JsonLibrary) (request : Request) (record : WorkspaceRecord)
    (next : WorkspaceState) (now : UnixMillis) (db : Database) : Database :=
  if next = record.state then db
  else
    let moved := db.moved record.reservation.workspaceId next request.code now
    { moved with
      receipts := db.receipts ++ request.receipts json record.reservation.workspaceId now }

/-! ### The CHECKs and triggers of an allowed update

Where the table allows a transition, the update that makes it meets every `CHECK` and every
trigger.  The triggers list edges, the table is a function; `stateTransition_of_transition`
is the inclusion that is needed. -/

section Checks

variable {db : Database} {record : WorkspaceRecord} {state : WorkspaceState}
  {code : Option ErrorCode} {now : UnixMillis}

/-- Every error code is one the table constraint accepts. -/
theorem glob_errorCode (code : ErrorCode) : Sql.glob code.asStr errorCodeGlob = true := by
  cases code <;> decide

/-- The texts of a state and its code pass the `CHECK` exactly as the record's invariant has them.
-/
theorem checkErrorCode_asStr (h : state = .error ↔ code.isSome = true) :
    checkErrorCode state.asStr (code.map ErrorCode.asStr) = true := by
  cases code with
  | none =>
    have hstate : state ≠ .error := fun he => by simpa using h.mp he
    cases state with
    | error => exact absurd rfl hstate
    | _ => rfl
  | some code =>
    rw [h.mpr rfl]
    simp [checkErrorCode, WorkspaceState.asStr, glob_errorCode]

/-- The `CHECK`s of a stamped row: those of the row, the new time and the new code. -/
theorem check_stamped (hrow : (recordRow record).check = true)
    (hcode : state = .error ↔ code.isSome = true) (htime : record.updatedAt.get ≤ now.get) :
    ((recordRow record).stamped state code now).check = true := by
  have hstate : stateNames.contains state.asStr = true := by cases state <;> decide
  have hcreated : record.reservation.createdAt.get ≤ now.get :=
    Int.le_trans record.created_le_updated htime
  simp only [WorkspaceRow.check, Bool.and_eq_true] at hrow ⊢
  obtain ⟨⟨⟨⟨hcolumns, -⟩, hnonneg⟩, -⟩, -⟩ := hrow
  exact ⟨⟨⟨⟨hcolumns, hstate⟩, hnonneg⟩, decide_eq_true hcreated⟩, checkErrorCode_asStr hcode⟩

/-- **The Rust table is among the trigger's edges.** -/
theorem stateTransition_of_transition {event : WorkspaceEvent} {next : WorkspaceState}
    (h : record.state.transition event = .ok next) :
    Database.workspacesStateTransition (recordRow record)
      ((recordRow record).stamped next code now) = true := by
  have hedge : ∀ current : WorkspaceState, current.transition event = .ok next →
      Database.workspacesStateTransition { recordRow record with state := current.asStr }
        ((recordRow record).stamped next code now) = true := by
    intro current htable
    cases current <;> rcases event with _ | _ | ⟨_ | _⟩ <;> cases htable <;> rfl
  exact hedge record.state h

/-- A stamp touches none of the columns that the trigger keeps. -/
theorem immutableFields_stamped (row : WorkspaceRow) :
    Database.workspacesImmutableFields row (row.stamped state code now) = true := by
  simp [Database.workspacesImmutableFields, WorkspaceRow.stamped]

/-- A stamp by an allowed transition passes every trigger and `CHECK` of an update.  The conditions
are those of the immutable columns, the table of transitions, the receipt of a Ready row, the error
code and the moment, and each is one of the assumptions. -/
theorem checkUpdate_stamped {event : WorkspaceEvent} (hrow : (recordRow record).check = true)
    (htransition : record.state.transition event = .ok state)
    (hcode : state = .error ↔ code.isSome = true) (htime : record.updatedAt.get ≤ now.get)
    (hreceipt : state = .ready →
      ∃ stored ∈ db.receipts, stored.workspaceId = record.reservation.workspaceId.toText) :
    db.checkUpdate (recordRow record) ((recordRow record).stamped state code now) = true := by
  have hready : db.workspacesReadyRequiresReceipt (recordRow record)
      ((recordRow record).stamped state code now) = true := by
    by_cases hs : state = .ready
    · obtain ⟨stored, hstored, hid⟩ := hreceipt hs
      have hany : db.receipts.any (fun r => r.workspaceId ==
          ((recordRow record).stamped state code now).workspaceId) = true :=
        List.any_eq_true.mpr ⟨stored, hstored, beq_iff_eq.mpr hid⟩
      simp [Database.workspacesReadyRequiresReceipt, hany]
    · have hne : (((recordRow record).stamped state code now).state == "ready") = false :=
        beq_eq_false_iff_ne.mpr fun he => hs (WorkspaceState.asStr_injective he)
      simp [Database.workspacesReadyRequiresReceipt, hne]
  simp only [Database.checkUpdate, Bool.and_eq_true]
  exact ⟨⟨⟨⟨immutableFields_stamped _, stateTransition_of_transition htransition⟩,
    decide_eq_true htime⟩, hready⟩, check_stamped hrow hcode htime⟩

/-- **An allowed update goes through**: it counts one row, and moves it.  The row is the only one
with its identifier, so the update rewrites it alone. -/
theorem updateWorkspace_moved (hids : (db.workspaces.map (·.workspaceId)).Nodup)
    (hrow : recordRow record ∈ db.workspaces)
    (hcheck : db.checkUpdate (recordRow record) ((recordRow record).stamped state code now) =
      true) :
    db.updateWorkspace record.reservation.workspaceId.toText record.state.asStr
      (fun row => row.stamped state code now) =
        .ok (1, db.moved record.reservation.workspaceId state code now) := by
  -- The row is the only one with its identity, so its state does not select further.
  have hcond : ∀ row ∈ db.workspaces,
      (row.workspaceId == record.reservation.workspaceId.toText &&
        row.state == record.state.asStr) = true ↔ row = recordRow record := by
    intro row hmem
    constructor
    · intro h
      simp only [Bool.and_eq_true, beq_iff_eq] at h
      exact Sql.eq_of_key_eq hids hmem hrow h.1
    · rintro rfl
      simp [recordRow, reservationRow, WorkspaceRow.stamped]
  have hkey : ∀ row ∈ db.workspaces, row.workspaceId = record.reservation.workspaceId.toText ↔
      row = recordRow record := fun row hmem =>
    ⟨fun h => Sql.eq_of_key_eq hids hmem hrow h, fun h => h ▸ rfl⟩
  have hcount : db.workspaces.countP (fun row =>
      row.workspaceId == record.reservation.workspaceId.toText &&
        row.state == record.state.asStr) = 1 := by
    rw [← Sql.countP_key_eq_one hids hrow]
    refine List.countP_congr fun row hmem => ?_
    rw [hcond row hmem, beq_iff_eq]
    exact (hkey row hmem).symm
  have hall : (db.workspaces.all fun row =>
      !(row.workspaceId == record.reservation.workspaceId.toText &&
        row.state == record.state.asStr) || db.checkUpdate row (row.stamped state code now)) =
      true := by
    refine List.all_eq_true.mpr fun row hmem => ?_
    by_cases h : row = recordRow record
    · rw [h, hcheck, Bool.or_true]
    · rw [Bool.eq_false_iff.mpr fun hc => h ((hcond row hmem).mp hc)]
      rfl
  have hmap : (db.workspaces.map fun row =>
      if (row.workspaceId == record.reservation.workspaceId.toText &&
        row.state == record.state.asStr) = true then row.stamped state code now else row) =
      db.workspaces.map fun row =>
        if row.workspaceId = record.reservation.workspaceId.toText then
          row.stamped state code now else row := by
    refine List.map_congr_left fun row hmem => ?_
    exact if_congr ((hcond row hmem).trans (hkey row hmem).symm) rfl rfl
  unfold Database.updateWorkspace Sql.updateWhere
  rw [if_pos hall, hcount, hmap]
  rfl

end Checks

/-! ### What the table allows succeeds

Accepted: the operation is followed statement by statement, with the database that each
leaves.  Only a fault of a statement can stop it (`Faulted`), not a refusal. -/

/-- A failure that comes from the statement's execution and not from a refusal. -/
def Faulted (e : PortError) : Prop := e.kind = .storage

/-- The record a transition leads to: its relations hold again, by the two facts that are asked
for. -/
def WorkspaceRecord.after (record : WorkspaceRecord) (state : WorkspaceState)
    (code : Option ErrorCode) (now : UnixMillis) (hcode : state = .error ↔ code.isSome = true)
    (htime : record.updatedAt.get ≤ now.get) : WorkspaceRecord where
  reservation := record.reservation
  state := state
  lastErrorCode := code
  updatedAt := now
  created_le_updated := Int.le_trans record.created_le_updated htime
  error_iff := hcode

section Accepted

variable {db : Database} {record : WorkspaceRecord} {state : WorkspaceState}
  {code : Option ErrorCode} {now : UnixMillis}

/-- Reading a workspace yields its record, since identifiers are unique. -/
theorem readWorkspace_yields (hids : (db.workspaces.map (·.workspaceId)).Nodup)
    (hrow : recordRow record ∈ db.workspaces) :
    Session.Yields Faulted (readWorkspace record.reservation.workspaceId) db (some record) db := by
  have hselect : db.selectWorkspace record.reservation.workspaceId.toText =
      some (recordRow record) := selectWorkspace_of_mem hids hrow
  have hfault : Faulted (storageError "read Workspace") := rfl
  refine (Session.yields_query hfault).bind ?_
  rw [hselect]
  exact Session.yields_ofExcept (by rw [intoRecord_recordRow]; rfl)

/-- Moving a row to another state leaves every identifier. -/
theorem moved_ids (id : WorkspaceId) :
    (db.moved id state code now).workspaces.map (·.workspaceId) =
      db.workspaces.map (·.workspaceId) := by
  unfold Database.moved
  rw [List.map_map]
  refine List.map_congr_left fun row _ => ?_
  show (if row.workspaceId = id.toText then row.stamped state code now else row).workspaceId = _
  split <;> rfl

/-- The row of the record after a transition is in the database that it leaves. -/
theorem after_mem_moved (hrow : recordRow record ∈ db.workspaces)
    (hcode : state = .error ↔ code.isSome = true) (htime : record.updatedAt.get ≤ now.get) :
    recordRow (WorkspaceRecord.after record state code now hcode htime) ∈
      (db.moved record.reservation.workspaceId state code now).workspaces :=
  List.mem_map.mpr ⟨recordRow record, hrow, if_pos rfl⟩

/-- A guarded update of the row yields the database with that row moved, and counts one row. -/
theorem updateWorkspace_yields {operation : String}
    (hids : (db.workspaces.map (·.workspaceId)).Nodup) (hrow : recordRow record ∈ db.workspaces)
    (hcheck : db.checkUpdate (recordRow record) ((recordRow record).stamped state code now) =
      true) :
    Session.Yields Faulted (Session.mapError (updateError operation)
      (Session.exec .storage fun db =>
        db.updateWorkspace record.reservation.workspaceId.toText record.state.asStr
          fun row => row.stamped state code now)) db 1
      (db.moved record.reservation.workspaceId state code now) := by
  have hexec : Session.Yields (· = SqlError.storage) (Session.exec .storage fun db : Database =>
      db.updateWorkspace record.reservation.workspaceId.toText record.state.asStr
        fun row => row.stamped state code now) db 1
      (db.moved record.reservation.workspaceId state code now) :=
    Session.yields_exec rfl (updateWorkspace_moved hids hrow hcheck)
  refine hexec.mapError ?_
  rintro _ rfl
  rfl

/-- A guarded update the checks allow moves the row and reads it back.  The update counts one row,
and the lookup behind it finds the row that was written. -/
theorem expectedUpdate_yields {operation : String}
    (hids : (db.workspaces.map (·.workspaceId)).Nodup) (hrow : recordRow record ∈ db.workspaces)
    (hcode : state = .error ↔ code.isSome = true) (htime : record.updatedAt.get ≤ now.get)
    (hne : state ≠ record.state)
    (hcheck : db.checkUpdate (recordRow record) ((recordRow record).stamped state code now) =
      true) :
    Session.Yields Faulted (expectedUpdate record.reservation.workspaceId record.state operation
        fun row => row.stamped state code now) db
      (WorkspaceRecord.after record state code now hcode htime)
      (db.moved record.reservation.workspaceId state code now) := by
  have hids' : ((db.moved record.reservation.workspaceId state code now).workspaces.map
      (·.workspaceId)).Nodup := by
    rw [moved_ids]
    exact hids
  have hread : Session.Yields Faulted (readWorkspace record.reservation.workspaceId)
      (db.moved record.reservation.workspaceId state code now)
      (some (WorkspaceRecord.after record state code now hcode htime))
      (db.moved record.reservation.workspaceId state code now) :=
    @readWorkspace_yields _ (WorkspaceRecord.after record state code now hcode htime) hids'
      (after_mem_moved hrow hcode htime)
  refine (updateWorkspace_yields hids hrow hcheck).bind ?_
  unfold finishExpectedUpdate
  rw [if_neg (by decide)]
  exact hread.bind ((Session.yields_require hne).bind Session.yields_pure)

/-- A receipt of a workspace that is being created is inserted.  A workspace that is being created
has no receipt yet, and its row is in the state that the trigger asks for. -/
theorem insertReceipt_creating {json : JsonLibrary} {receipt : MaterializationReceipt}
    (hdb : db.Consistent) (hrow : recordRow record ∈ db.workspaces)
    (hstate : record.state = .creating)
    (hjson : json.jsonValid (json.toText (finalReceiptJson receipt)) = true) :
    db.insertReceipt json.jsonValid (receiptRow json record.reservation.workspaceId receipt now) =
      .ok ((), { db with
        receipts := db.receipts ++ [receiptRow json record.reservation.workspaceId receipt now] }) := by
  have hcreating : (recordRow record).state = "creating" := congrArg WorkspaceState.asStr hstate
  have hselect : db.selectWorkspace record.reservation.workspaceId.toText =
      some (recordRow record) := selectWorkspace_of_mem hdb.ids_nodup hrow
  have hfresh : db.receipts.any (fun stored =>
      stored.workspaceId == record.reservation.workspaceId.toText) = false := by
    refine List.any_eq_false.mpr fun stored hstored => ?_
    have hne := hdb.creating_no_receipt _ hrow hcreating stored hstored
    exact fun he => hne (beq_iff_eq.mp he)
  have hguard : db.receiptsInsertGuard
      (receiptRow json record.reservation.workspaceId receipt now) = true := by
    show (!(db.receipts.any fun stored =>
        stored.workspaceId == record.reservation.workspaceId.toText) &&
      (db.selectWorkspace record.reservation.workspaceId.toText).any _) = true
    rw [hfresh, hselect, Option.any_some, hcreating]
    rfl
  have hcheck : (receiptRow json record.reservation.workspaceId receipt now).check
      json.jsonValid = true := by
    simp only [ReceiptRow.check, receiptRow, hjson, Bool.and_true, Bool.and_eq_true]
    exact ⟨rfl, decide_eq_true now.nonneg⟩
  have hparent : (db.workspaces.any fun row =>
      row.workspaceId == record.reservation.workspaceId.toText) = true :=
    List.any_eq_true.mpr ⟨recordRow record, hrow, beq_iff_eq.mpr rfl⟩
  unfold Database.insertReceipt
  rw [hguard, hcheck]
  exact if_pos hparent

/-- A completion yields the Ready record and stores the receipt, where nothing fails.  The
statements of the transaction are run in their order, with the receipt inserted before the row
becomes Ready. -/
theorem completeMaterialization_yields {json : JsonLibrary} {plan : MaterializationPlan}
    {receipt : MaterializationReceipt} (hdb : db.Consistent)
    (hrow : recordRow record ∈ db.workspaces) (hstate : record.state = .creating)
    (haccepted : receiptAccepted record.reservation plan receipt = true)
    (hjson : json.jsonValid (json.toText (finalReceiptJson receipt)) = true)
    (htime : record.updatedAt.get ≤ now.get) :
    Session.Yields Faulted
      (completeMaterialization json record.reservation.workspaceId plan receipt now) db
      (WorkspaceRecord.after record .ready none now (by decide) htime)
      { db.moved record.reservation.workspaceId .ready none now with
        receipts := db.receipts ++ [receiptRow json record.reservation.workspaceId receipt now] } := by
  let stored := receiptRow json record.reservation.workspaceId receipt now
  let mid : Database := { db with receipts := db.receipts ++ [stored] }
  have htransition : record.state.transition .materialized = .ok .ready := by rw [hstate]; rfl
  have hcheck : mid.checkUpdate (recordRow record) ((recordRow record).stamped .ready none now) =
      true :=
    checkUpdate_stamped (hdb.checked _ hrow) htransition (by decide) htime fun _ =>
      ⟨stored, List.mem_append_right _ (List.mem_singleton_self _), rfl⟩
  have hinsert : Session.Yields Faulted (Session.mapError (updateError "insert final receipt")
      (Session.exec .storage fun db => db.insertReceipt json.jsonValid stored)) db () mid := by
    have hexec : Session.Yields (· = SqlError.storage)
        (Session.exec .storage fun db => db.insertReceipt json.jsonValid stored) db () mid :=
      Session.yields_exec rfl (insertReceipt_creating hdb hrow hstate hjson)
    refine hexec.mapError ?_
    rintro _ rfl
    rfl
  have hids' : ((mid.moved record.reservation.workspaceId .ready none now).workspaces.map
      (·.workspaceId)).Nodup := by
    rw [moved_ids]
    exact hdb.ids_nodup
  have hread : Session.Yields Faulted (readWorkspace record.reservation.workspaceId)
      (mid.moved record.reservation.workspaceId .ready none now)
      (some (WorkspaceRecord.after record .ready none now (by decide) htime))
      (mid.moved record.reservation.workspaceId .ready none now) :=
    @readWorkspace_yields _ (WorkspaceRecord.after record .ready none now (by decide) htime) hids'
      (@after_mem_moved mid _ _ _ _ hrow (by decide) htime)
  have hbegin : Faulted (storageError "begin final receipt transaction") := rfl
  refine Session.yields_transaction hbegin rfl
    ((readWorkspace_yields hdb.ids_nodup hrow).bind ((Session.yields_require hstate).bind ?_))
  refine (Session.yields_ofExcept (by rw [htransition]; rfl)).bind
    ((Session.yields_require haccepted).bind (hinsert.bind ?_))
  have hupdate := @updateWorkspace_yields mid record .ready none now "complete materialization"
    hdb.ids_nodup hrow hcheck
  rw [hstate] at hupdate
  exact hupdate.bind ((Session.yields_require rfl).bind (hread.bind Session.yields_pure))

/-- **Accepted.**  What the table allows, with a valid receipt and a time that has not
gone back, no `CHECK` and no trigger refuses: short of a fault the operation returns
the record the table leads to and leaves exactly the table's effect. -/
theorem Request.accepted {json : JsonLibrary} (request : Request) {next : WorkspaceState}
    (hdb : db.Consistent) (hrow : recordRow record ∈ db.workspaces)
    (htransition : record.state.transition request.event = .ok next)
    (hvalid : request.Valid json record.reservation) (htime : record.updatedAt.get ≤ now.get) :
    ∃ after : WorkspaceRecord, after.reservation = record.reservation ∧ after.state = next ∧
      after.lastErrorCode = request.code ∧
      Session.Yields Faulted
        (request.operation json record.reservation.workspaceId record.state now) db after
        (request.effect json record next now db) := by
  have hids := hdb.ids_nodup
  have hchecked := hdb.checked _ hrow
  cases request with
  | materialized plan receipt =>
    obtain ⟨hstate, rfl⟩ := WorkspaceState.transition_materialized htransition
    have hmoves : WorkspaceState.ready ≠ record.state := by rw [hstate]; decide
    refine ⟨WorkspaceRecord.after record .ready none now (by decide) htime, rfl, rfl, rfl, ?_⟩
    unfold Request.effect
    rw [if_neg hmoves]
    exact completeMaterialization_yields hdb hrow hstate hvalid.1 hvalid.2 htime
  | failed code =>
    obtain ⟨rfl, hstate⟩ := WorkspaceState.transition_failed htransition
    have hcode : WorkspaceState.error = .error ↔ (some code).isSome = true :=
      ⟨fun _ => rfl, fun _ => rfl⟩
    refine ⟨WorkspaceRecord.after record .error (some code) now hcode htime, rfl, rfl, rfl, ?_⟩
    have hcheck : db.checkUpdate (recordRow record)
        ((recordRow record).stamped .error (some code) now) = true :=
      checkUpdate_stamped hchecked htransition hcode htime fun h => by cases h
    have hallowed : decoded "validate failure transition" (record.state.transition .failed) =
        .ok .error := by rw [show record.state.transition .failed = _ from htransition]; rfl
    unfold Request.effect Request.receipts
    rw [if_neg hstate.symm, List.append_nil]
    exact (Session.yields_ofExcept hallowed).bind
      (expectedUpdate_yields hids hrow hcode htime hstate.symm hcheck)
  | beginRemoval mode =>
    obtain ⟨rfl, _⟩ := WorkspaceState.transition_beginRemoval htransition
    have hcode : WorkspaceState.deleting = .error ↔ (none : Option ErrorCode).isSome = true := by
      decide
    have hallowed : decoded "validate removal transition"
        (record.state.transition (.beginRemoval mode)) = .ok .deleting := by
      rw [show record.state.transition (.beginRemoval mode) = _ from htransition]
      rfl
    unfold Request.effect Request.receipts
    by_cases hsame : WorkspaceState.deleting = record.state
    · -- A removal that is under way is reaffirmed: the row is read and not written.
      have hnone : record.lastErrorCode = none := by
        refine Option.not_isSome_iff_eq_none.mp fun hsome => ?_
        have herror := record.error_iff.mpr hsome
        rw [← hsame] at herror
        cases herror
      refine ⟨record, rfl, hsame.symm, hnone, ?_⟩
      rw [if_pos hsame]
      refine (Session.yields_ofExcept hallowed).bind ?_
      rw [if_pos hsame]
      exact (readWorkspace_yields hids hrow).bind
        ((Session.yields_require rfl).bind Session.yields_pure)
    · refine ⟨WorkspaceRecord.after record .deleting none now hcode htime, rfl, rfl, rfl, ?_⟩
      have hcheck : db.checkUpdate (recordRow record)
          ((recordRow record).stamped .deleting none now) = true :=
        checkUpdate_stamped hchecked htransition hcode htime fun h => by cases h
      rw [if_neg hsame, List.append_nil]
      refine (Session.yields_ofExcept hallowed).bind ?_
      rw [if_neg hsame]
      exact expectedUpdate_yields hids hrow hcode htime hsame hcheck

end Accepted

/-! ### What the table does not allow fails

Refused: the operation stops at the table, or its update finds no row in the state that the
caller expects.  The primary key matters here, as a second row of the identity could be in
that state. -/

section Refused

variable {db : Database} {record : WorkspaceRecord}

/-- An update that selects no row writes none. -/
theorem updateWorkspace_unmatched {db' : Database} {id expected : String}
    {assign : WorkspaceRow → WorkspaceRow} {n : ℕ}
    (h : db.updateWorkspace id expected assign = .ok (n, db'))
    (hnone : ∀ row ∈ db.workspaces, row.workspaceId = id → row.state ≠ expected) : db' = db := by
  obtain ⟨rows, hrows, rfl⟩ := updateWorkspace_ok h
  obtain ⟨-, rfl, -⟩ := Sql.updateWhere_ok hrows
  have hsame : db.workspaces.map (fun row =>
      if (row.workspaceId == id && row.state == expected) = true then assign row else row) =
      db.workspaces := by
    refine (List.map_congr_left fun row hrow => ?_).trans (List.map_id _)
    refine if_neg fun hcond => ?_
    simp only [Bool.and_eq_true, beq_iff_eq] at hcond
    exact hnone row hrow hcond.1 hcond.2
  rw [hsame]

/-- With a primary key, a row in another state is not the one an update expects. -/
theorem unmatched_of_state (hids : (db.workspaces.map (·.workspaceId)).Nodup)
    (hrow : recordRow record ∈ db.workspaces) {expected : WorkspaceState}
    (hstate : record.state ≠ expected) :
    ∀ row ∈ db.workspaces, row.workspaceId = record.reservation.workspaceId.toText →
      row.state ≠ expected.asStr := by
  intro row hmem hid he
  have hsame := Sql.eq_of_key_eq hids hmem hrow hid
  rw [hsame] at he
  exact hstate (WorkspaceState.asStr_injective he)

/-- An operation that returns was one the table allows from the row's state.  Each operation that
returns has found its row in the state it expected, and from there the table was consulted. -/
theorem Request.operation_ok {json : JsonLibrary} {request : Request} {expected : WorkspaceState}
    {now : UnixMillis} {after : WorkspaceRecord} {c c' : Connection Database}
    (hids : (c.data.workspaces.map (·.workspaceId)).Nodup)
    (hrow : recordRow record ∈ c.data.workspaces)
    (h : request.operation json record.reservation.workspaceId expected now c = .ok after c') :
    ∃ next, record.state.transition request.event = .ok next := by
  have hselect : c.data.selectWorkspace record.reservation.workspaceId.toText =
      some (recordRow record) := selectWorkspace_of_mem hids hrow
  have hfound : ∀ {row : WorkspaceRow} {state : WorkspaceState},
      c.data.selectWorkspace record.reservation.workspaceId.toText = some row →
        row.state = state.asStr → record.state = state := by
    intro row state hread hstate
    rw [hselect] at hread
    cases hread
    exact WorkspaceState.asStr_injective hstate
  cases request with
  | materialized plan receipt =>
    obtain ⟨old, before, hold, hbefore, hcreating, _⟩ := completeMaterialization_ok hids h
    have hstate : record.state = .creating :=
      hcreating ▸ hfound hold (WorkspaceRow.intoRecord_ok hbefore).2.2.2.1
    exact ⟨.ready, by rw [hstate]; rfl⟩
  | failed code =>
    obtain ⟨next, hnext, h⟩ := Session.ofExcept_bind_ok h
    obtain ⟨row, hread, hstate, _⟩ := expectedUpdate_ok hids h
    rw [hfound hread hstate]
    exact ⟨next, decoded_ok hnext⟩
  | beginRemoval mode =>
    obtain ⟨⟨row, hread, hstate⟩, _⟩ := beginRemoval_ok hids h
    obtain ⟨next, hnext, _⟩ := Session.ofExcept_bind_ok h
    rw [hfound hread hstate]
    exact ⟨next, decoded_ok hnext⟩

/-- An operation that stops at the table has written nothing. -/
theorem data_of_refused {α : Type} {r : Except WorkspaceTransitionError WorkspaceState}
    {error : WorkspaceTransitionError} {operation : String} {f : WorkspaceState → Store α}
    {e : PortError} {c c' : Connection Database} (hr : r = .error error)
    (h : (Session.ofExcept (decoded operation r) >>= f) c = .error e c') : c'.data = c.data := by
  subst hr
  rcases Session.bind_error h with h | ⟨_, _, hok, _⟩
  · exact congrArg Connection.data (Session.ofExcept_error h).2
  · cases (Session.ofExcept_ok hok).1

/-- An operation the table does not allow writes nothing.  A completion is a transaction, which
undoes itself; the other two are refused by the table before they write, or select by an expected
state that the row does not have. -/
theorem Request.operation_unchanged {json : JsonLibrary} {request : Request}
    {expected : WorkspaceState} {now : UnixMillis} {error : WorkspaceTransitionError}
    {e : PortError} {c c' : Connection Database}
    (hids : (c.data.workspaces.map (·.workspaceId)).Nodup)
    (hrow : recordRow record ∈ c.data.workspaces)
    (hrefused : record.state.transition request.event = .error error)
    (h : request.operation json record.reservation.workspaceId expected now c = .error e c') :
    c'.data = c.data := by
  let Unmatched (db db' : Database) : Prop :=
    (∀ row ∈ db.workspaces, row.workspaceId = record.reservation.workspaceId.toText →
      row.state ≠ expected.asStr) → db' = db
  have hrefl : ∀ db, Unmatched db db := fun _ _ => rfl
  cases request with
  | materialized plan receipt => exact Session.transaction_error h
  | failed code =>
    by_cases hstate : record.state = expected
    · exact data_of_refused (hstate ▸ hrefused) h
    · have hleaves : Session.Leaves Unmatched
          (recordFailure record.reservation.workspaceId expected code now) :=
        recordFailure_leaves hrefl fun _ _ _ => updateWorkspace_unmatched
      exact hleaves.error h (unmatched_of_state hids hrow hstate)
  | beginRemoval mode =>
    by_cases hstate : record.state = expected
    · exact data_of_refused (hstate ▸ hrefused) h
    · have hleaves : Session.Leaves Unmatched
          (Metadata.beginRemoval record.reservation.workspaceId expected mode now) :=
        beginRemoval_leaves hrefl fun _ _ _ => updateWorkspace_unmatched
      exact hleaves.error h (unmatched_of_state hids hrow hstate)

/-- **Refused.**  What the table does not allow fails, whatever state the caller
expects, and changes nothing. -/
theorem Request.refused {json : JsonLibrary} {request : Request} {expected : WorkspaceState}
    {now : UnixMillis} {error : WorkspaceTransitionError}
    (hids : (db.workspaces.map (·.workspaceId)).Nodup) (hrow : recordRow record ∈ db.workspaces)
    (hrefused : record.state.transition request.event = .error error) (faults : List Bool) :
    ∃ e c, request.operation json record.reservation.workspaceId expected now ⟨db, faults⟩ =
      .error e c ∧ c.data = db := by
  cases h : request.operation json record.reservation.workspaceId expected now ⟨db, faults⟩ with
  | ok after c =>
    obtain ⟨next, hnext⟩ := Request.operation_ok hids hrow h
    rw [hnext] at hrefused
    cases hrefused
  | error e c => exact ⟨e, c, rfl, Request.operation_unchanged hids hrow hrefused h⟩

end Refused

/-! ### What no change touches

The columns that identify a row are immutable by a trigger.  So every change keeps them, or
deletes the row behind a tombstone, and the same holds of any number of changes. -/

/-- The columns that identify a row and its reservation, the same in both rows. -/
structure WorkspaceRow.SameIdentity (old new : WorkspaceRow) : Prop where
  workspaceId : old.workspaceId = new.workspaceId
  instanceId : old.instanceId = new.instanceId
  name : old.name = new.name
  sourcePath : old.sourcePath = new.sourcePath
  targetPath : old.targetPath = new.targetPath
  sourceVolumeId : old.sourceVolumeId = new.sourceVolumeId
  targetVolumeId : old.targetVolumeId = new.targetVolumeId
  allowFullCopy : old.allowFullCopy = new.allowFullCopy
  createdAt : old.createdAt = new.createdAt

/-- A row has its own identity. -/
theorem WorkspaceRow.SameIdentity.refl (row : WorkspaceRow) : row.SameIdentity row := by
  constructor <;> rfl

/-- What has the identity of a row that has another's has that one's. -/
theorem WorkspaceRow.SameIdentity.trans {a b c : WorkspaceRow} (hab : a.SameIdentity b)
    (hbc : b.SameIdentity c) : a.SameIdentity c where
  workspaceId := hab.workspaceId.trans hbc.workspaceId
  instanceId := hab.instanceId.trans hbc.instanceId
  name := hab.name.trans hbc.name
  sourcePath := hab.sourcePath.trans hbc.sourcePath
  targetPath := hab.targetPath.trans hbc.targetPath
  sourceVolumeId := hab.sourceVolumeId.trans hbc.sourceVolumeId
  targetVolumeId := hab.targetVolumeId.trans hbc.targetVolumeId
  allowFullCopy := hab.allowFullCopy.trans hbc.allowFullCopy
  createdAt := hab.createdAt.trans hbc.createdAt

section Kept

variable {db db' : Database} {row : WorkspaceRow}

/-- The trigger on the immutable columns, as the columns it keeps. -/
theorem sameIdentity_of_checkUpdate {old new : WorkspaceRow} (h : db.checkUpdate old new = true) :
    old.SameIdentity new := by
  simp only [Database.checkUpdate, Database.workspacesImmutableFields, Bool.and_eq_true,
    beq_iff_eq] at h
  constructor <;> tauto

/-- The row is still there with its identity, or its identity is tombstoned. -/
def Database.Keeps (db : Database) (row : WorkspaceRow) : Prop :=
  (∃ kept ∈ db.workspaces, row.SameIdentity kept) ∨
    ∃ t ∈ db.tombstones, t.workspaceId = row.workspaceId

/-- An update keeps the identity of every row, the changed one included. -/
theorem updateWorkspace_keeps {id expected : String} {assign : WorkspaceRow → WorkspaceRow} {n : ℕ}
    (h : db.updateWorkspace id expected assign = .ok (n, db')) (hrow : row ∈ db.workspaces) :
    ∃ kept ∈ db'.workspaces, row.SameIdentity kept := by
  obtain ⟨rows, hrows, rfl⟩ := updateWorkspace_ok h
  obtain ⟨-, -, hcheck⟩ := Sql.updateWhere_ok hrows
  by_cases hcond : (row.workspaceId == id && row.state == expected) = true
  · have hchecked := hcheck row hrow hcond
    exact ⟨assign row, (Sql.mem_updateWhere hrows).mpr (.inr ⟨row, hrow, hcond, hchecked, rfl⟩),
      sameIdentity_of_checkUpdate hchecked⟩
  · exact ⟨row, (Sql.mem_updateWhere hrows).mpr (.inl ⟨hrow, by simpa using hcond⟩),
      .refl row⟩

/-- **One step.**  A change keeps every row's identity, or deletes the row behind its tombstone.
Every update keeps the immutable columns, and only a deletion removes a row. -/
theorem Change.keeps (h : Change db db') (hrow : row ∈ db.workspaces) : db'.Keeps row := by
  cases h with
  | unchanged => exact .inl ⟨row, hrow, .refl row⟩
  | reserved insert =>
    obtain ⟨rfl, _⟩ := insertWorkspace_ok insert
    exact .inl ⟨row, List.mem_append_left _ hrow, .refl row⟩
  | completed insert update =>
    obtain ⟨rfl, _⟩ := insertReceipt_ok insert
    exact .inl (updateWorkspace_keeps update hrow)
  | left leaves update => exact .inl (updateWorkspace_keeps update hrow)
  | @deleted tombstone _ _ insert delete =>
    obtain ⟨rfl, _⟩ := insertTombstone_ok insert
    obtain ⟨_, htomb, hrows, _⟩ := deleteWorkspace_ok delete
    by_cases hgone : Database.isDeleting tombstone.workspaceId row = true
    · simp only [Database.isDeleting, Bool.and_eq_true, beq_iff_eq] at hgone
      refine .inr ⟨tombstone, ?_, hgone.1.symm⟩
      rw [htomb]
      exact List.mem_append_right _ (List.mem_singleton_self _)
    · exact .inl ⟨row, (hrows row).mpr ⟨hrow, by simpa using hgone⟩, .refl row⟩

/-- A row that is kept is kept by a change more, or its identity is tombstoned. -/
theorem Change.keeps_trans (h : Change db db') (hkeeps : db.Keeps row) : db'.Keeps row := by
  rcases hkeeps with ⟨kept, hkept, hsame⟩ | ⟨t, ht, hid⟩
  · rcases h.keeps hkept with ⟨kept', hkept', hsame'⟩ | ⟨t, ht, hid⟩
    · exact .inl ⟨kept', hkept', hsame.trans hsame'⟩
    · exact .inr ⟨t, ht, hid.trans hsame.workspaceId.symm⟩
  · exact .inr ⟨t, h.tombstone_mem ht, hid⟩

/-- A row with the identifier of one that is kept has its whole identity. -/
theorem Database.Keeps.sameIdentity (hdb : db.Consistent) (h : db.Keeps row) {other : WorkspaceRow}
    (hother : other ∈ db.workspaces) (hid : other.workspaceId = row.workspaceId) :
    row.SameIdentity other := by
  rcases h with ⟨kept, hkept, hsame⟩ | ⟨t, ht, htid⟩
  · rwa [Sql.eq_of_key_eq hdb.ids_nodup hother hkept (hid.trans hsame.workspaceId)]
  · exact absurd (hid.trans htid.symm) (hdb.tombstones_inactive t ht other hother)

end Kept

/-! ### The agreement

The three parts as one statement on every database that calls lead to: what is allowed
succeeds, what is not allowed fails and changes nothing, and identities are kept. -/

/-- The table and the triggers agree on a database: on every row of it, for every
request, and after every sequence of calls. -/
structure Database.TransitionsAgree (json : JsonLibrary) (installation : InstallationRecord)
    (db : Database) : Prop where
  encoded : ∀ row ∈ db.workspaces, ∃ record, row = recordRow record
  accepted : ∀ record : WorkspaceRecord, recordRow record ∈ db.workspaces →
    ∀ (request : Request) (next : WorkspaceState) (now : UnixMillis),
      record.state.transition request.event = .ok next →
      request.Valid json record.reservation → record.updatedAt.get ≤ now.get →
      ∃ after : WorkspaceRecord, after.reservation = record.reservation ∧ after.state = next ∧
        after.lastErrorCode = request.code ∧
        Session.Yields Faulted
          (request.operation json record.reservation.workspaceId record.state now) db after
          (request.effect json record next now db)
  refused : ∀ record : WorkspaceRecord, recordRow record ∈ db.workspaces →
    ∀ (request : Request) (error : WorkspaceTransitionError),
      record.state.transition request.event = .error error →
      ∀ (expected : WorkspaceState) (now : UnixMillis) (faults : List Bool),
        ∃ e c, request.operation json record.reservation.workspaceId expected now ⟨db, faults⟩ =
          .error e c ∧ c.data = db
  kept : ∀ row ∈ db.workspaces, ∀ later : List (Call × List Bool),
    (runCalls json installation db later).Keeps row ∧
      ∀ other ∈ (runCalls json installation db later).workspaces,
        other.workspaceId = row.workspaceId → row.SameIdentity other

/-- **The decision table and the triggers agree.**  On every database a sequence of
calls leads to, a transition the table allows goes through with exactly its effect,
one it does not allow fails, and no later sequence of calls changes the identity,
the name, the paths, the volumes or the creation time of a row. -/
theorem transitions_agree (json : JsonLibrary) (installation : InstallationRecord)
    (calls : List (Call × List Bool)) :
    (runCalls json installation (.initialized installation) calls).TransitionsAgree json
      installation := by
  have hdb := consistent_runCalls json installation calls
  refine ⟨encoded_runCalls json installation calls,
    fun record hrow request next now htransition hvalid htime =>
      request.accepted hdb hrow htransition hvalid htime,
    fun record hrow request error hrefused expected now faults =>
      request.refused hdb.ids_nodup hrow hrefused faults, fun row hrow later => ?_⟩
  have hkept := runCalls_preserves json installation
    (P := fun db => db.Consistent ∧ db.Keeps row)
    (fun _ _ h hc => ⟨hc.consistent h.1, hc.keeps_trans h.2⟩)
    ⟨hdb, .inl ⟨row, hrow, .refl row⟩⟩ later
  exact ⟨hkept.2, fun other hother hid => hkept.2.sameIdentity hkept.1 hother hid⟩

end Metadata
end ThinWorkspace
