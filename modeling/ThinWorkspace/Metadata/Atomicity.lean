/-
# What a failed call leaves behind

Source: `crates/thinws-metadata-sqlite/src/lib.rs`.  Three of the five operations
change nothing when they fail: `reserve_workspace` writes in its last statement
that can fail, and `complete_materialization` and `complete_deletion` read and write
inside one transaction.  The two guarded updates commit before they read the row
back, so `record_failure` and `begin_removal` fail with the row already moved when
that read meets a fault.

`Call.ReadBackFails` is that situation, `expectedUpdate_atomic_iff` says that it is
the only one, and `Call.atomic_iff` carries it to every call on every reachable
database.
-/

import ThinWorkspace.Metadata.Transitions

namespace ThinWorkspace
namespace Metadata

open ThinWorkspace.Core Lib Ports

/-! ### Failing

The condition under which a failed call may have changed something.  A guarded update is two
statements without a transaction, the `UPDATE` and the `SELECT` that reads the row back;
only a fault at the second one, behind an update that moved a row, is a failure with an
effect.  The condition is one on the database before the call and on the faults. -/

/-- The call returns an error, on this database and with these faults. -/
def Call.Fails (json : JsonLibrary) (installation : InstallationRecord) (call : Call)
    (faults : List Bool) (db : Database) : Prop :=
  match call with
  | .reserveWorkspace reservation =>
    Session.Fails (Metadata.reserveWorkspace installation reservation) ⟨db, faults⟩
  | .completeMaterialization id plan receipt now =>
    Session.Fails (Metadata.completeMaterialization json id plan receipt now) ⟨db, faults⟩
  | .recordFailure id expected code now =>
    Session.Fails (Metadata.recordFailure id expected code now) ⟨db, faults⟩
  | .beginRemoval id expected mode now =>
    Session.Fails (Metadata.beginRemoval id expected mode now) ⟨db, faults⟩
  | .completeDeletion id instanceId now =>
    Session.Fails (Metadata.completeDeletion id instanceId now) ⟨db, faults⟩

/-- A guarded update finds its row, in the state it expects and not written later
than `now`. -/
def Database.Updatable (db : Database) (id : WorkspaceId) (expected : WorkspaceState)
    (now : UnixMillis) : Prop :=
  ∃ row ∈ db.workspaces, row.workspaceId = id.toText ∧ row.state = expected.asStr ∧
    row.updatedAt ≤ now.get

/-- The first statement, which is the `UPDATE`, goes through, and the second, which
is the `SELECT` that reads the row back, does not. -/
def SecondFails (faults : List Bool) : Prop := ∃ rest, faults = false :: true :: rest

/-- The decision table leads from the state to another one. -/
def Moves (current : WorkspaceState) (event : WorkspaceEvent) : Prop :=
  ∃ next, current.transition event = .ok next ∧ next ≠ current

/-- The call is a guarded update that moves a row, and the read of that row fails. -/
def Call.ReadBackFails (call : Call) (faults : List Bool) (db : Database) : Prop :=
  match call with
  | .recordFailure id expected _ now =>
    Moves expected .failed ∧ db.Updatable id expected now ∧ SecondFails faults
  | .beginRemoval id expected mode now =>
    Moves expected (.beginRemoval mode) ∧ db.Updatable id expected now ∧ SecondFails faults
  | _ => False

/-! ### Guarded updates

The run of a guarded update is computed statement by statement (`expectedUpdate_run`), and
each of its ends either leaves the database or is the exception.  That a moved row shows
(`moved_ne`) makes the condition necessary: the state of the row is another one afterwards.
-/

section Guarded

variable {db : Database} {id : WorkspaceId} {expected state : WorkspaceState}
  {code : Option ErrorCode} {now : UnixMillis} {operation : String} {faults : List Bool}

/-- An update that finds no row to write, or is refused, leaves the database. -/
theorem expectedUpdate_unchanged (h : ¬db.Updatable id expected now) :
    Session.dataAfter (expectedUpdate id expected operation
      fun row => row.stamped state code now) ⟨db, faults⟩ = db := by
  let Kept (db db' : Database) : Prop := ¬db.Updatable id expected now → db' = db
  have hleaves : Session.Leaves Kept (expectedUpdate id expected operation
      fun row => row.stamped state code now) := by
    refine expectedUpdate_leaves (fun _ _ => rfl) fun db n db' hupdate hnone => ?_
    refine updateWorkspace_unmatched hupdate fun row hrow hid hstate => hnone ?_
    obtain ⟨rows, hrows, -⟩ := updateWorkspace_ok hupdate
    obtain ⟨-, -, hcheck⟩ := Sql.updateWhere_ok hrows
    have hchecked := hcheck row hrow (by simp [hid, hstate])
    exact ⟨row, hrow, hid, hstate, (checkUpdate_spec hchecked).2.2.2.2.2.1⟩
  exact hleaves ⟨db, faults⟩ h

variable {record : WorkspaceRecord}

/-- An update that finds its row, statement by statement: the first fault stops it before the row
is moved, the second after.  The two statements are the update and the read-back, each of which
meets at most one fault. -/
theorem expectedUpdate_run (hids : (db.workspaces.map (·.workspaceId)).Nodup)
    (hrow : recordRow record ∈ db.workspaces)
    (hcode : state = .error ↔ code.isSome = true) (htime : record.updatedAt.get ≤ now.get)
    (hne : state ≠ record.state)
    (hcheck : db.checkUpdate (recordRow record) ((recordRow record).stamped state code now) =
      true) :
    expectedUpdate record.reservation.workspaceId record.state operation
        (fun row => row.stamped state code now) ⟨db, faults⟩ =
      if faults.head?.getD false = true then
        .error (storageError operation) ⟨db, faults.tail⟩
      else if faults.tail.head?.getD false = true then
        .error (storageError "read Workspace")
          ⟨db.moved record.reservation.workspaceId state code now, faults.tail.tail⟩
      else .ok (WorkspaceRecord.after record state code now hcode htime)
        ⟨db.moved record.reservation.workspaceId state code now, faults.tail.tail⟩ := by
  have hupdate := updateWorkspace_moved hids hrow hcheck
  have hselect : (db.moved record.reservation.workspaceId state code now).selectWorkspace
      record.reservation.workspaceId.toText =
        some (recordRow (WorkspaceRecord.after record state code now hcode htime)) := by
    refine selectWorkspace_of_mem ?_ (after_mem_moved hrow hcode htime)
    rw [moved_ids]
    exact hids
  have hinto := intoRecord_recordRow (WorkspaceRecord.after record state code now hcode htime)
  have hupdated : Session.mapError (updateError operation) (Session.exec .storage fun db =>
      db.updateWorkspace record.reservation.workspaceId.toText record.state.asStr
        fun row => row.stamped state code now) ⟨db, faults⟩ =
      if faults.head?.getD false = true then
        .error (storageError operation) ⟨db, faults.tail⟩
      else .ok 1 ⟨db.moved record.reservation.workspaceId state code now, faults.tail⟩ := by
    unfold Session.mapError Session.handle
    rw [Session.exec_run, hupdate]
    by_cases hfirst : faults.head?.getD false = true
    · rw [if_pos hfirst, if_pos hfirst]
      rfl
    · rw [if_neg hfirst, if_neg hfirst]
  have hread : readWorkspace record.reservation.workspaceId
      ⟨db.moved record.reservation.workspaceId state code now, faults.tail⟩ =
      if faults.tail.head?.getD false = true then
        .error (storageError "read Workspace")
          ⟨db.moved record.reservation.workspaceId state code now, faults.tail.tail⟩
      else .ok (some (WorkspaceRecord.after record state code now hcode htime))
        ⟨db.moved record.reservation.workspaceId state code now, faults.tail.tail⟩ := by
    unfold readWorkspace
    rw [Session.bind_run, Session.query_run, hselect]
    by_cases hsecond : faults.tail.head?.getD false = true
    · rw [if_pos hsecond, if_pos hsecond]
    · rw [if_neg hsecond, if_neg hsecond]
      simp only [hinto]
      rfl
  unfold expectedUpdate
  rw [Session.bind_run, hupdated]
  by_cases hfirst : faults.head?.getD false = true
  · rw [if_pos hfirst, if_pos hfirst]
  · rw [if_neg hfirst, if_neg hfirst]
    unfold finishExpectedUpdate
    simp only [if_neg (show ¬(1 : ℕ) = 0 by decide)]
    rw [Session.bind_run, hread]
    by_cases hsecond : faults.tail.head?.getD false = true
    · rw [if_pos hsecond, if_pos hsecond]
    · rw [if_neg hsecond, if_neg hsecond]
      simp only [Session.require, if_pos (show
        (WorkspaceRecord.after record state code now hcode htime).state ≠ record.state from hne)]
      rfl

/-- A moved row shows in the database. -/
theorem moved_ne (hids : (db.workspaces.map (·.workspaceId)).Nodup)
    (hrow : recordRow record ∈ db.workspaces)
    (hcode : state = .error ↔ code.isSome = true) (htime : record.updatedAt.get ≤ now.get)
    (hne : state ≠ record.state) :
    db.moved record.reservation.workspaceId state code now ≠ db := by
  intro hsame
  have hafter := after_mem_moved hrow hcode htime
  rw [hsame] at hafter
  have hrows := Sql.eq_of_key_eq hids hafter hrow rfl
  exact hne (WorkspaceState.asStr_injective (congrArg WorkspaceRow.state hrows))

/-- The faults that let the update through and stop the read. -/
theorem secondFails_iff :
    SecondFails faults ↔ ¬faults.head?.getD false = true ∧ faults.tail.head?.getD false = true := by
  constructor
  · rintro ⟨rest, rfl⟩
    simp
  · rintro ⟨hfirst, hsecond⟩
    rcases faults with _ | ⟨_ | _, _ | ⟨_ | _, faults⟩⟩ <;> simp at hfirst hsecond
    exact ⟨faults, rfl⟩

/-- **A guarded update is atomic exactly when** its read-back does not fail after a row was moved.
Where no row is updatable nothing is written, and where one is the read-back decides, which is the
second statement. -/
theorem expectedUpdate_atomic_iff {event : WorkspaceEvent} (hdb : db.Consistent)
    (hencoded : db.Encoded) (htransition : expected.transition event = .ok state)
    (hne : state ≠ expected) (hready : state ≠ .ready)
    (hcode : state = .error ↔ code.isSome = true) :
    (Session.Fails (expectedUpdate id expected operation
        fun row => row.stamped state code now) ⟨db, faults⟩ →
      Session.dataAfter (expectedUpdate id expected operation
        fun row => row.stamped state code now) ⟨db, faults⟩ = db) ↔
      ¬(db.Updatable id expected now ∧ SecondFails faults) := by
  by_cases hupdatable : db.Updatable id expected now
  case neg =>
    exact iff_of_true (fun _ => expectedUpdate_unchanged hupdatable) fun h => hupdatable h.1
  have hfound := hupdatable
  obtain ⟨row, hrow, hid, hstate, htime⟩ := hfound
  obtain ⟨record, rfl⟩ := hencoded row hrow
  obtain rfl : record.reservation.workspaceId = id := WorkspaceId.toText_injective hid
  obtain rfl : record.state = expected := WorkspaceState.asStr_injective hstate
  have hcheck : db.checkUpdate (recordRow record) ((recordRow record).stamped state code now) =
      true :=
    checkUpdate_stamped (hdb.checked _ hrow) htransition hcode htime fun h => absurd h hready
  unfold Session.Fails Session.dataAfter
  rw [@expectedUpdate_run db state code now operation faults record hdb.ids_nodup hrow hcode htime
    hne hcheck, secondFails_iff]
  by_cases hfirst : faults.head?.getD false = true
  · rw [if_pos hfirst]
    exact iff_of_true (fun _ => rfl) fun h => h.2.1 hfirst
  rw [if_neg hfirst]
  by_cases hsecond : faults.tail.head?.getD false = true
  · rw [if_pos hsecond]
    have hmoved := moved_ne hdb.ids_nodup hrow hcode htime hne
    exact iff_of_false (fun h => hmoved (h ⟨_, _, rfl⟩)) fun h => h ⟨hupdatable, hfirst, hsecond⟩
  · rw [if_neg hsecond]
    exact iff_of_true (fun ⟨_, _, h⟩ => by cases h) fun h => hsecond h.2.2

end Guarded

/-! ### The other operations

A completion and a deletion run in one transaction each, which a failure rolls back.  A
reservation makes one write, and nothing that follows it can fail. -/

section Others

variable {c : Connection Database}

/-- A transaction that fails leaves the database. -/
theorem unchanged_of_transaction {α : Type} {onBegin onCommit : PortError} {body : Store α}
    (h : Session.Fails (Session.transaction onBegin onCommit body) c) :
    Session.dataAfter (Session.transaction onBegin onCommit body) c = c.data := by
  obtain ⟨e, c', h⟩ := h
  unfold Session.dataAfter
  rw [h]
  exact Session.transaction_error h

/-- A reservation that fails has inserted nothing: what follows the insertion cannot fail.  The
insertion is one statement, so where it fails nothing is inserted, and the answer behind it is
computed. -/
theorem reserveWorkspace_unchanged {installation : InstallationRecord}
    {reservation : WorkspaceReservation}
    (h : Session.Fails (reserveWorkspace installation reservation) c) :
    Session.dataAfter (reserveWorkspace installation reservation) c = c.data := by
  obtain ⟨e, c', h⟩ := h
  have hdata : c'.data = c.data := by
    rcases Session.bind_error h with h | ⟨_, c₁, hrequire, h⟩
    · exact (Session.reads_require.error h).symm
    rcases Session.bind_error h with h | ⟨_, c₂, hinsert, h⟩
    · obtain ⟨e₁, c₂, hexec, hclassify⟩ := Session.handle_error h
      rw [← reads_classifyReservationError.error hclassify, (Session.exec_error hexec).1,
        ← Session.reads_require.ok hrequire]
    · have hrecord := WorkspaceRecord.new_fields (reservedRecord reservation)
      obtain ⟨hfailed, -⟩ := Session.ofExcept_error h
      rw [show WorkspaceRecord.new reservation .creating none reservation.createdAt = _ from
        hrecord] at hfailed
      cases hfailed
  unfold Session.dataAfter
  rw [h]
  exact hdata

end Others

/-! ### Every call

Each call is taken to the table of the state machine first: where the table refuses nothing
runs, and where it keeps the state nothing is written.  What remains is the guarded update
of the section before.  The last example has both ingredients, a row that moves and a fault
at the read. -/

section Calls

variable {json : JsonLibrary} {installation : InstallationRecord} {db : Database}
  {faults : List Bool}

/-- Behind a table that refuses, nothing runs. -/
theorem dataAfter_of_refused {α : Type} {r : Except WorkspaceTransitionError WorkspaceState}
    {e : WorkspaceTransitionError} {operation : String} {f : WorkspaceState → Store α}
    {c : Connection Database} (hr : r = .error e) :
    Session.dataAfter (Session.ofExcept (decoded operation r) >>= f) c = c.data := by
  subst hr
  rfl

/-- Behind a table that allows, the rest runs. -/
theorem run_of_allowed {α : Type} {r : Except WorkspaceTransitionError WorkspaceState}
    {next : WorkspaceState} {operation : String} {f : WorkspaceState → Store α}
    (hr : r = .ok next) : (Session.ofExcept (decoded operation r) >>= f) = f next := by
  subst hr
  rfl

/-- A transition that the table refuses moves nothing. -/
theorem not_moves_of_error {current : WorkspaceState} {event : WorkspaceEvent}
    {e : WorkspaceTransitionError} (h : current.transition event = .error e) :
    ¬Moves current event := by
  rintro ⟨next, hnext, -⟩
  rw [h] at hnext
  cases hnext

/-- `record_failure` is all or nothing unless its update was committed and the read behind it
fails.  A transition that the table refuses writes nothing, and one that it allows is a guarded
update. -/
theorem recordFailure_atomic_iff (hdb : db.Consistent) (hencoded : db.Encoded)
    {id : WorkspaceId} {expected : WorkspaceState} {code : ErrorCode} {now : UnixMillis} :
    (Session.Fails (recordFailure id expected code now) ⟨db, faults⟩ →
      Session.dataAfter (recordFailure id expected code now) ⟨db, faults⟩ = db) ↔
      ¬(Moves expected .failed ∧ db.Updatable id expected now ∧ SecondFails faults) := by
  unfold recordFailure
  cases htransition : expected.transition .failed with
  | error e =>
    exact iff_of_true (fun _ => dataAfter_of_refused rfl)
      fun h => not_moves_of_error htransition h.1
  | ok next =>
    obtain ⟨rfl, hne⟩ := WorkspaceState.transition_failed htransition
    have hcode : WorkspaceState.error = .error ↔ (some code).isSome = true :=
      ⟨fun _ => rfl, fun _ => rfl⟩
    have hmoves : Moves expected .failed := ⟨.error, htransition, hne.symm⟩
    have hready : WorkspaceState.error ≠ .ready := by decide
    rw [run_of_allowed rfl, and_iff_right hmoves]
    exact expectedUpdate_atomic_iff hdb hencoded htransition hne.symm hready hcode

/-- `begin_removal` is all or nothing under the same condition.  A removal from `deleting` only
reads, and any other that the table allows is a guarded update. -/
theorem beginRemoval_atomic_iff (hdb : db.Consistent) (hencoded : db.Encoded)
    {id : WorkspaceId} {expected : WorkspaceState} {mode : RemovalMode} {now : UnixMillis} :
    (Session.Fails (beginRemoval id expected mode now) ⟨db, faults⟩ →
      Session.dataAfter (beginRemoval id expected mode now) ⟨db, faults⟩ = db) ↔
      ¬(Moves expected (.beginRemoval mode) ∧ db.Updatable id expected now ∧
        SecondFails faults) := by
  unfold beginRemoval
  cases htransition : expected.transition (.beginRemoval mode) with
  | error e =>
    exact iff_of_true (fun _ => dataAfter_of_refused rfl)
      fun h => not_moves_of_error htransition h.1
  | ok next =>
    obtain ⟨rfl, -⟩ := WorkspaceState.transition_beginRemoval htransition
    have hcode : WorkspaceState.deleting = .error ↔ (none : Option ErrorCode).isSome = true := by
      decide
    have hready : WorkspaceState.deleting ≠ .ready := by decide
    rw [run_of_allowed rfl]
    by_cases hsame : WorkspaceState.deleting = expected
    · -- A reaffirmed removal only reads.
      rw [if_pos hsame]
      refine iff_of_true (fun _ => (reads_requireExpected ⟨db, faults⟩).symm) ?_
      rintro ⟨⟨next, hnext, hne⟩, -⟩
      rw [htransition] at hnext
      cases hnext
      exact hne hsame
    · rw [if_neg hsame, and_iff_right ⟨.deleting, htransition, hsame⟩]
      exact expectedUpdate_atomic_iff hdb hencoded htransition hsame hready hcode

/-- **One call.**  It changes nothing when it fails, unless it is a guarded update
whose read-back fails. -/
theorem Call.atomic_iff (hdb : db.Consistent) (hencoded : db.Encoded) (call : Call) :
    (call.Fails json installation faults db → call.run json installation faults db = db) ↔
      ¬call.ReadBackFails faults db := by
  cases call with
  | reserveWorkspace reservation =>
    exact iff_of_true reserveWorkspace_unchanged not_false
  | completeMaterialization id plan receipt now =>
    exact iff_of_true unchanged_of_transaction not_false
  | recordFailure id expected code now => exact recordFailure_atomic_iff hdb hencoded
  | beginRemoval id expected mode now => exact beginRemoval_atomic_iff hdb hencoded
  | completeDeletion id instanceId now =>
    exact iff_of_true unchanged_of_transaction not_false

end Calls

/-- **Atomicity, exactly.**  On every database a sequence of calls leads to, a call
that fails leaves all four tables as they were if and only if it is not a guarded
update that moved its row and then failed to read it back. -/
theorem call_atomic_iff (json : JsonLibrary) (installation : InstallationRecord)
    (calls : List (Call × List Bool)) (call : Call) (faults : List Bool) :
    (call.Fails json installation faults
        (runCalls json installation (.initialized installation) calls) →
      call.run json installation faults
          (runCalls json installation (.initialized installation) calls) =
        runCalls json installation (.initialized installation) calls) ↔
      ¬call.ReadBackFails faults
        (runCalls json installation (.initialized installation) calls) :=
  Call.atomic_iff (consistent_runCalls json installation calls)
    (encoded_runCalls json installation calls) call

/-- The workspace is being created; the failure is recorded, its read-back meets a
fault, the call fails, and the row is in `error`. -/
theorem recordFailure_not_atomic : ¬∀ (json : JsonLibrary) (installation : InstallationRecord)
    (calls : List (Call × List Bool)) (call : Call) (faults : List Bool),
    call.Fails json installation faults
        (runCalls json installation (.initialized installation) calls) →
      call.run json installation faults
          (runCalls json installation (.initialized installation) calls) =
        runCalls json installation (.initialized installation) calls := by
  intro h
  let calls : List (Call × List Bool) := [(.reserveWorkspace sampleReservation, [])]
  refine (Call.atomic_iff (consistent_runCalls sampleLibrary sampleInstallation calls)
    (encoded_runCalls sampleLibrary sampleInstallation calls)
    (.recordFailure sampleReservation.workspaceId .creating .filesystem sampleStart)).mp
    (h sampleLibrary sampleInstallation calls _ [false, true]) ?_
  rw [sampleDatabase_reachable]
  exact ⟨⟨.error, rfl, by decide⟩, ⟨reservationRow sampleReservation,
    List.mem_singleton_self _, rfl, rfl, Int.le_refl _⟩, [], rfl⟩

end Metadata
end ThinWorkspace
