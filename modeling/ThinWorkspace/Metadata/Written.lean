/-
# Every row reads back as it was written

Source: `crates/thinws-metadata-sqlite/src/lib.rs`, `RawWorkspace::into_record` and the
five methods that write.  What a method writes is a function of its arguments
(`Call.write`); a run writes the values of its calls one after the other, and a call
that leaves the database as it was writes nothing (`written`).  `Database.Stores` says
that the rows are those of records with given values: one call keeps it
(`Call.run_writes`), and so does a run (`runCalls_stores`).

With the grammars of `ThinWorkspace.Metadata.Grammar` this is what the store promises of
its text: `stored_text_reads_back`.
-/

import ThinWorkspace.Metadata.Grammar
import ThinWorkspace.Metadata.Transitions

namespace ThinWorkspace
namespace Metadata

open ThinWorkspace.Core Lib Ports

/-! ### What was written

What a call writes is said here without the database: a reservation adds values, a guarded
update restamps them, a deletion takes them away.  Folding this over the calls gives the
values that should be read. -/

/-- The values a row holds, as the operations write them. -/
structure Written where
  reservation : WorkspaceReservation
  state : WorkspaceState
  code : Option ErrorCode
  updatedAt : UnixMillis
deriving DecidableEq

/-- The values of a record that the store writes and reads back. -/
def Written.of (record : WorkspaceRecord) : Written :=
  ⟨record.reservation, record.state, record.lastErrorCode, record.updatedAt⟩

/-- A new state, code and update time under one identity. -/
def restamp (id : WorkspaceId) (state : WorkspaceState) (code : Option ErrorCode)
    (updatedAt : UnixMillis) (values : Written) : Written :=
  if values.reservation.workspaceId = id then { values with state, code, updatedAt } else values

/-- What a call that commits writes over the values of the rows so far. -/
def Call.write (table : List Written) : Call → List Written
  | .reserveWorkspace reservation =>
    table ++ [⟨reservation, .creating, none, reservation.createdAt⟩]
  | .completeMaterialization id _ _ recordedAt => table.map (restamp id .ready none recordedAt)
  | .recordFailure id _ errorCode updatedAt =>
    table.map (restamp id .error (some errorCode) updatedAt)
  | .beginRemoval id _ _ updatedAt => table.map (restamp id .deleting none updatedAt)
  | .completeDeletion id _ _ => table.filter fun values => values.reservation.workspaceId ≠ id

variable (json : JsonLibrary) (installation : InstallationRecord)

/-- The values the calls of a run wrote; a call that leaves the database as it was wrote
nothing. -/
def written (db : Database) (table : List Written) : List (Call × List Bool) → List Written
  | [] => table
  | (call, faults) :: calls =>
    written (call.run json installation faults db)
      (if call.run json installation faults db = db then table else call.write table) calls

/-- The rows are those of records with the given values. -/
def Database.Stores (db : Database) (table : List Written) : Prop :=
  ∃ records : List WorkspaceRecord,
    db.workspaces = records.map recordRow ∧ records.map Written.of = table

/-! ### One statement

Each statement does to the rows what its call does to the values.  The rows are compared
with records, so a column that could not be decoded would show. -/

section Statements

variable {db db' : Database} {table : List Written} {id : WorkspaceId}

/-- A list whose members are chosen one by one. -/
theorem exists_map_eq {α β γ δ : Type} {f : α → β} {g : α → γ} {f' : δ → β} {g' : δ → γ}
    {as : List α} (h : ∀ a ∈ as, ∃ d, f' d = f a ∧ g' d = g a) :
    ∃ ds : List δ, ds.map f' = as.map f ∧ ds.map g' = as.map g := by
  induction as with
  | nil => exact ⟨[], rfl, rfl⟩
  | cons a as ih =>
    obtain ⟨d, hf, hg⟩ := h a List.mem_cons_self
    obtain ⟨ds, hfs, hgs⟩ := ih fun a ha => h a (List.mem_cons_of_mem _ ha)
    exact ⟨d :: ds, by simp [hf, hfs], by simp [hg, hgs]⟩

/-- An update of the row of an identity restamps its values. -/
theorem updateWorkspace_stores (hids : (db.workspaces.map (·.workspaceId)).Nodup)
    {expected : String} {state : WorkspaceState} {code : Option ErrorCode} {updatedAt : UnixMillis}
    {n : ℕ} (h : db.updateWorkspace id.toText expected
      (fun row => row.stamped state code updatedAt) = .ok (n, db'))
    (hrow : ∃ row ∈ db.workspaces, row.workspaceId = id.toText ∧ row.state = expected)
    (hstores : db.Stores table) : db'.Stores (table.map (restamp id state code updatedAt)) := by
  obtain ⟨records, hrecords, rfl⟩ := hstores
  obtain ⟨touched, htouched, hid, hstate⟩ := hrow
  obtain ⟨rows, hrows, rfl⟩ := updateWorkspace_ok h
  obtain ⟨-, rfl, hcheck⟩ := Sql.updateWhere_ok hrows
  have hnext : ∀ record ∈ records, ∃ next : WorkspaceRecord,
      recordRow next = (if (recordRow record).workspaceId == id.toText &&
        (recordRow record).state == expected then
          (recordRow record).stamped state code updatedAt else recordRow record) ∧
      Written.of next = restamp id state code updatedAt (Written.of record) := by
    intro record hmem
    have hin : recordRow record ∈ db.workspaces := hrecords ▸ List.mem_map_of_mem hmem
    by_cases hrecord : record.reservation.workspaceId = id
    · -- Identities are unique, so this is the row the update found in the expected state.
      have htext : (recordRow record).workspaceId = id.toText := by rw [← hrecord]; rfl
      have hsame := Sql.eq_of_key_eq hids hin htouched (htext.trans hid.symm)
      have hmatch : ((recordRow record).workspaceId == id.toText &&
          (recordRow record).state == expected) = true := by
        rw [Bool.and_eq_true, beq_iff_eq, beq_iff_eq]
        exact ⟨htext, by rw [hsame, hstate]⟩
      obtain ⟨next, hreservation, hnextState, hcode, hupdated, hstamped⟩ :=
        recordRow_stamped (checkUpdate_spec (hcheck _ hin hmatch)).2.2.2.2.2.2
      refine ⟨next, ?_, ?_⟩
      · rw [if_pos hmatch, hstamped]
      · rw [restamp, if_pos (show (Written.of record).reservation.workspaceId = id from hrecord)]
        show Written.mk _ _ _ _ = Written.mk _ _ _ _
        rw [hreservation, hnextState, hcode, hupdated]
        rfl
    · have hother : ¬((recordRow record).workspaceId == id.toText &&
          (recordRow record).state == expected) = true := by
        rw [Bool.and_eq_true, beq_iff_eq]
        exact fun hmatch => hrecord (WorkspaceId.toText_injective hmatch.1)
      refine ⟨record, (if_neg hother).symm, ?_⟩
      rw [restamp, if_neg (show ¬(Written.of record).reservation.workspaceId = id from hrecord)]
  obtain ⟨next, hnextRows, hnextValues⟩ := exists_map_eq hnext
  refine ⟨next, ?_, ?_⟩
  · rw [hnextRows, hrecords, List.map_map]
    rfl
  · rw [hnextValues, List.map_map]
    rfl

/-- The row of a reservation is the row of the record that says so. -/
theorem insertWorkspace_stores {reservation : WorkspaceReservation}
    (h : db.insertWorkspace (reservationRow reservation) = .ok ((), db'))
    (hstores : db.Stores table) :
    db'.Stores (table ++ [⟨reservation, .creating, none, reservation.createdAt⟩]) := by
  obtain ⟨records, hrecords, rfl⟩ := hstores
  obtain ⟨rfl, -⟩ := insertWorkspace_ok h
  refine ⟨records ++ [reservedRecord reservation], ?_, ?_⟩
  · rw [List.map_append, ← hrecords]
    rfl
  · rw [List.map_append]
    rfl

/-- The rows a deletion leaves, in their order. -/
theorem deleteWorkspace_rows {workspaceId : String} {n : ℕ}
    (h : db.deleteWorkspace workspaceId = .ok (n, db')) :
    db'.workspaces = db.workspaces.filter fun row => !Database.isDeleting workspaceId row := by
  obtain ⟨⟨deleted, rows⟩, hrows, h⟩ := Fallible.bind_ok h
  obtain ⟨⟨cascaded, receipts⟩, -, h⟩ := Fallible.bind_ok h
  cases h
  exact (Sql.deleteWhere_ok hrows).2.1

/-- A deletion takes the values of its identity away. -/
theorem deleteWorkspace_stores (hdb : db.Consistent) {tombstone : TombstoneRow} {mid : Database}
    {n : ℕ} (hid : tombstone.workspaceId = id.toText)
    (hinsert : db.insertTombstone tombstone = .ok ((), mid))
    (hdelete : mid.deleteWorkspace tombstone.workspaceId = .ok (n, db'))
    (hstores : db.Stores table) :
    db'.Stores (table.filter fun values => values.reservation.workspaceId ≠ id) := by
  obtain ⟨records, hrecords, rfl⟩ := hstores
  obtain ⟨rfl, found, hfound, hfoundId, hdeleting⟩ := insertTombstone_ok hinsert
  have hrows := deleteWorkspace_rows hdelete
  -- Identities are unique, so every row of the identity is in the state that is deleted.
  have hcond : ∀ record ∈ records,
      (!Database.isDeleting tombstone.workspaceId (recordRow record)) =
        decide (record.reservation.workspaceId ≠ id) := by
    intro record hmem
    have hin : recordRow record ∈ db.workspaces := hrecords ▸ List.mem_map_of_mem hmem
    rw [Bool.eq_iff_iff, Bool.not_eq_true', decide_eq_true_eq, Bool.eq_false_iff, ne_eq,
      not_iff_not,
      Database.isDeleting, Bool.and_eq_true, beq_iff_eq, beq_iff_eq, hid]
    constructor
    · exact fun hmatch => WorkspaceId.toText_injective hmatch.1
    · intro hrecord
      have htext : (recordRow record).workspaceId = id.toText := by rw [← hrecord]; rfl
      refine ⟨htext, ?_⟩
      rw [Sql.eq_of_key_eq hdb.ids_nodup hin hfound (htext.trans (hid.symm.trans hfoundId.symm)),
        hdeleting]
  refine ⟨records.filter fun record => record.reservation.workspaceId ≠ id, ?_, ?_⟩
  · rw [hrows]
    show db.workspaces.filter _ = _
    rw [hrecords, List.filter_map]
    congr 1
    exact List.filter_congr hcond
  · rw [List.filter_map]
    rfl

end Statements

/-! ### One call

A call leaves the database as it was, or writes its values; which of the two is not said,
since a fault decides it.  The run lemma takes the values written last. -/

section Calls

variable {faults : List Bool} {db : Database} {table : List Written}

/-- What a statement of a call leaves: the database as it was, or the values of the call
written over those of the rows. -/
def Writes (call : Call) (db db' : Database) : Prop :=
  db.Consistent → db' = db ∨ ∀ table, db.Stores table → db'.Stores (call.write table)

/-- An update that stamps a row writes the state and the time it was given, or touches nothing. -/
theorem updateWorkspace_writes {db db' : Database} {id : WorkspaceId} {expected : String}
    {state : WorkspaceState} {code : Option ErrorCode} {updatedAt : UnixMillis} {n : ℕ}
    (hdb : db.Consistent) (h : db.updateWorkspace id.toText expected
      (fun row => row.stamped state code updatedAt) = .ok (n, db')) :
    db' = db ∨ ∀ table, db.Stores table →
      db'.Stores (table.map (restamp id state code updatedAt)) := by
  by_cases hrow : ∃ row ∈ db.workspaces, row.workspaceId = id.toText ∧ row.state = expected
  · exact .inr fun table hstores => updateWorkspace_stores hdb.ids_nodup h hrow hstores
  · refine .inl (updateWorkspace_unmatched h fun row hmem hid hstate => ?_)
    exact hrow ⟨row, hmem, hid, hstate⟩

/-- **One call.**  It leaves the database as it was, or it writes its values. -/
theorem Call.run_writes (call : Call) : Writes call db (call.run json installation faults db) := by
  have hrefl : ∀ db, Writes call db db := fun _ _ => .inl rfl
  cases call with
  | reserveWorkspace reservation =>
    exact reserveWorkspace_leaves hrefl
      (fun _ _ hinsert _ => .inr fun _ => insertWorkspace_stores hinsert) ⟨db, faults⟩
  | completeMaterialization id plan receipt recordedAt =>
    refine completeMaterialization_leaves hrefl
      (fun db mid db' row hid hinsert hupdate hdb => ?_) ⟨db, faults⟩
    obtain ⟨hmid, -, found, hfound, hfoundId, hcreating⟩ := insertReceipt_ok hinsert
    have hrows : mid.workspaces = db.workspaces := by rw [hmid]
    rw [hid] at hupdate hfoundId
    have hids : (mid.workspaces.map (·.workspaceId)).Nodup := hrows ▸ hdb.ids_nodup
    have hrow : ∃ row ∈ mid.workspaces, row.workspaceId = id.toText ∧ row.state = "creating" :=
      ⟨found, hrows ▸ hfound, hfoundId, hcreating⟩
    refine .inr fun table hstores => updateWorkspace_stores hids hupdate hrow ?_
    rwa [Database.Stores, hrows]
  | recordFailure id expected code updatedAt =>
    exact recordFailure_leaves hrefl
      (fun _ _ _ hupdate hdb => updateWorkspace_writes hdb hupdate) ⟨db, faults⟩
  | beginRemoval id expected mode updatedAt =>
    exact beginRemoval_leaves hrefl
      (fun _ _ _ hupdate hdb => updateWorkspace_writes hdb hupdate) ⟨db, faults⟩
  | completeDeletion id instanceId deletedAt =>
    exact completeDeletion_leaves hrefl
      (fun _ _ _ _ hid hinsert hdelete hdb => .inr fun _ =>
        deleteWorkspace_stores hdb hid hinsert hdelete) ⟨db, faults⟩

/-- **The run.**  The rows are those of records with the values written last. -/
theorem runCalls_stores (hdb : db.Consistent) (hstores : db.Stores table)
    (calls : List (Call × List Bool)) :
    (runCalls json installation db calls).Stores (written json installation db table calls) := by
  induction calls generalizing db table with
  | nil => exact hstores
  | cons step calls ih =>
    obtain ⟨call, faults⟩ := step
    have hnext := (call.run_change json installation faults db).consistent hdb
    refine ih hnext ?_
    show (call.run json installation faults db).Stores _
    split_ifs with hsame
    · rwa [hsame]
    · rcases call.run_writes json installation hdb with hunchanged | hwrites
      · exact absurd hunchanged hsame
      · exact hwrites table hstores

end Calls

/-! ### Reading it back

The agreement of `CHECK` and parser on single texts, and the run lemma on whole rows, in one
statement. -/

/-- **Rust and SQL agree on stored text.**  A text satisfies the `CHECK` of its column
exactly when the parser accepts it, and the parsed value prints as that text; every error
code satisfies its `CHECK`; and after any calls of the store, whatever their faults, every
row decodes, to the reservation, the state, the code and the time that were written last. -/
theorem stored_text_reads_back (calls : List (Call × List Bool)) :
    SameGrammar checkName (fun s => (WorkspaceName.tryFrom s).toOption) WorkspaceName.asStr ∧
      SameGrammar checkWorkspaceId (fun s => (WorkspaceId.fromText s).toOption)
        WorkspaceId.toText ∧
      SameGrammar checkInstanceId (fun s => (UuidV7.fromText s).toOption) UuidV7.toText ∧
      SameGrammar checkVolumeId VolumeId.fromText VolumeId.toText ∧
      (∀ code : ErrorCode, checkErrorCode WorkspaceState.error.asStr (some code.asStr) = true) ∧
      ∃ records : List WorkspaceRecord,
        (runCalls json installation (.initialized installation) calls).workspaces.mapM
          WorkspaceRow.intoRecord = .ok records ∧
        records.map Written.of =
          written json installation (.initialized installation) [] calls := by
  refine ⟨checkName_grammar, checkWorkspaceId_grammar, checkInstanceId_grammar,
    checkVolumeId_grammar, fun code => ?_, ?_⟩
  · exact @checkErrorCode_asStr .error (some code) (by simp)
  · have hempty : (Database.initialized installation).Stores [] := ⟨[], rfl, rfl⟩
    obtain ⟨records, hrecords, hvalues⟩ := runCalls_stores json installation
      (Database.initialized_consistent installation) hempty calls
    exact ⟨records, by rw [hrecords, mapM_intoRecord], hvalues⟩

end Metadata
end ThinWorkspace
