/-
# The store invariant over whole runs

`Database.Consistent` is the inductive invariant: the `CHECK`s hold of every
row, the keys are free of repetitions, receipts pair with Ready rows, and no
identity is both active and tombstoned.  `Change.consistent` is the step,
`consistent_runCalls` the run.  `store_invariant_over_runs` restates it as what
a reader of the schema wants to know, with the permanence of tombstones.
-/

import ThinWorkspace.Metadata.Change

namespace ThinWorkspace
namespace Metadata

open ThinWorkspace.Core Lib

/-- The inductive invariant of the four tables: the checks of every row, the columns that are
unique, and a receipt for every row that is Ready. -/
structure Database.Consistent (db : Database) : Prop where
  checked : ∀ r ∈ db.workspaces, r.check = true
  same_volume : ∀ r ∈ db.workspaces, r.sourceVolumeId = r.targetVolumeId
  ids_nodup : (db.workspaces.map (·.workspaceId)).Nodup
  names_nodup : (db.workspaces.map (·.name)).Nodup
  targets_nodup : (db.workspaces.map (·.targetPath)).Nodup
  receipt_ids_nodup : (db.receipts.map (·.workspaceId)).Nodup
  ready_receipt : ∀ r ∈ db.workspaces, r.state = "ready" →
    ∃ x ∈ db.receipts, x.workspaceId = r.workspaceId
  creating_no_receipt : ∀ r ∈ db.workspaces, r.state = "creating" →
    ∀ x ∈ db.receipts, x.workspaceId ≠ r.workspaceId
  receipt_active : ∀ x ∈ db.receipts, ∃ r ∈ db.workspaces, r.workspaceId = x.workspaceId
  tombstones_inactive : ∀ t ∈ db.tombstones, ∀ r ∈ db.workspaces,
    r.workspaceId ≠ t.workspaceId

/-- A new installation is consistent. -/
theorem Database.initialized_consistent (installation : InstallationRecord) :
    (Database.initialized installation).Consistent := by
  constructor <;> simp [Database.initialized]

namespace Database.Consistent

variable {db db' : Database}

/-- An inserted reservation is a new `creating` row without a receipt.  The parts of the invariant
that speak of every row hold of the new one by the checks of the insertion, and its key, name and
target differ from the others by the uniqueness checks. -/
theorem insertWorkspace (hi : db.Consistent) {new : WorkspaceRow} {u : Unit}
    (h : db.insertWorkspace new = .ok (u, db')) : db'.Consistent := by
  obtain ⟨rfl, hfresh, hcheck, hstate, _, hvol, htomb⟩ := insertWorkspace_ok h
  refine ⟨?_, ?_, ?_, ?_, ?_, hi.receipt_ids_nodup, ?_, ?_, ?_, ?_⟩
  · intro r hr
    rcases List.mem_append.mp hr with hr | hr
    · exact hi.checked r hr
    · rwa [List.mem_singleton.mp hr]
  · intro r hr
    rcases List.mem_append.mp hr with hr | hr
    · exact hi.same_volume r hr
    · rwa [List.mem_singleton.mp hr]
  · exact Sql.nodup_map_append hi.ids_nodup fun r hr => (hfresh r hr).1
  · exact Sql.nodup_map_append hi.names_nodup fun r hr => (hfresh r hr).2.1
  · exact Sql.nodup_map_append hi.targets_nodup fun r hr => (hfresh r hr).2.2
  · intro r hr hready
    rcases List.mem_append.mp hr with hr | hr
    · exact hi.ready_receipt r hr hready
    · rw [List.mem_singleton.mp hr, hstate] at hready
      exact absurd hready (by decide)
  · intro r hr hcreating x hx
    rcases List.mem_append.mp hr with hr | hr
    · exact hi.creating_no_receipt r hr hcreating x hx
    · obtain ⟨w, hw, he⟩ := hi.receipt_active x hx
      rw [List.mem_singleton.mp hr, ← he]
      exact (hfresh w hw).1
  · intro x hx
    obtain ⟨w, hw, he⟩ := hi.receipt_active x hx
    exact ⟨w, List.mem_append_left _ hw, he⟩
  · intro t ht r hr
    rcases List.mem_append.mp hr with hr | hr
    · exact hi.tombstones_inactive t ht r hr
    · rw [List.mem_singleton.mp hr]
      exact (htomb t ht).symm

/-- An update that keeps receipts and Ready rows together keeps the invariant: the immutable
columns and the `CHECK`s take care of everything else.  What is left to the caller are the two
facts about states and receipts; keys, names and targets do not change by `checkUpdate_spec`. -/
theorem update (hi : db.Consistent) {rows : List WorkspaceRow} (receipts : List ReceiptRow)
    {cond : WorkspaceRow → Bool} {assign : WorkspaceRow → WorkspaceRow} {n : ℕ} {e : SqlError}
    (h : Sql.updateWhere db.workspaces cond assign
      ({ db with receipts } : Database).checkUpdate e = .ok (n, rows))
    (hnodup : (receipts.map (·.workspaceId)).Nodup)
    (hready : ∀ r ∈ rows, r.state = "ready" → ∃ x ∈ receipts, x.workspaceId = r.workspaceId)
    (hcreating : ∀ r ∈ rows, r.state = "creating" →
      ∀ x ∈ receipts, x.workspaceId ≠ r.workspaceId)
    (hactive : ∀ x ∈ receipts, ∃ r ∈ db.workspaces, r.workspaceId = x.workspaceId) :
    ({ db with workspaces := rows, receipts } : Database).Consistent := by
  have hids : rows.map (·.workspaceId) = db.workspaces.map (·.workspaceId) :=
    Sql.map_updateWhere h fun r hr => (checkUpdate_spec hr).1.symm
  have hrow : ∀ r ∈ rows, r ∈ db.workspaces ∨
      ∃ old ∈ db.workspaces, ({ db with receipts } : Database).checkUpdate old r = true := by
    intro r hr
    rcases (Sql.mem_updateWhere h).mp hr with ⟨hr, _⟩ | ⟨old, hold, _, hcheck, rfl⟩
    · exact .inl hr
    · exact .inr ⟨old, hold, hcheck⟩
  refine ⟨fun r hr => ?_, fun r hr => ?_, ?_, ?_, ?_, hnodup, hready, hcreating, fun x hx => ?_,
    fun t ht r hr => ?_⟩
  · rcases hrow r hr with hr | ⟨old, _, hcheck⟩
    · exact hi.checked r hr
    · exact (checkUpdate_spec hcheck).2.2.2.2.2.2
  · rcases hrow r hr with hr | ⟨old, hold, hcheck⟩
    · exact hi.same_volume r hr
    · obtain ⟨_, _, _, hs, ht, _⟩ := checkUpdate_spec hcheck
      rw [← hs, ← ht]
      exact hi.same_volume old hold
  · exact hids ▸ hi.ids_nodup
  · rw [show rows.map (·.name) = db.workspaces.map (·.name) from
      Sql.map_updateWhere h fun r hr => (checkUpdate_spec hr).2.1.symm]
    exact hi.names_nodup
  · rw [show rows.map (·.targetPath) = db.workspaces.map (·.targetPath) from
      Sql.map_updateWhere h fun r hr => (checkUpdate_spec hr).2.2.1.symm]
    exact hi.targets_nodup
  · obtain ⟨w, hw, he⟩ := hactive x hx
    obtain ⟨r, hr, hrw⟩ := List.mem_map.mp (hids ▸ List.mem_map_of_mem hw)
    exact ⟨r, hr, hrw.trans he⟩
  · obtain ⟨w, hw, he⟩ := List.mem_map.mp (hids ▸ List.mem_map_of_mem hr)
    rw [← show w.workspaceId = r.workspaceId from he]
    exact hi.tombstones_inactive t ht w hw

/-- A row that leaves for `deleting` or `error` keeps its receipt, if it has one.  A row that is
Ready or `creating` afterwards was so before, since the assignment leads to neither, and its
receipt is the old one. -/
theorem leave (hi : db.Consistent) {workspaceId expected : String}
    {assign : WorkspaceRow → WorkspaceRow} {n : ℕ}
    (leaves : ∀ r, (assign r).state = "error" ∨ (assign r).state = "deleting")
    (h : db.updateWorkspace workspaceId expected assign = .ok (n, db')) : db'.Consistent := by
  obtain ⟨rows, hrows, rfl⟩ := updateWorkspace_ok h
  have hold : ∀ r ∈ rows, r.state = "ready" ∨ r.state = "creating" → r ∈ db.workspaces := by
    intro r hr hs
    rcases (Sql.mem_updateWhere hrows).mp hr with ⟨hr, _⟩ | ⟨old, _, _, _, rfl⟩
    · exact hr
    · rcases leaves old with hl | hl <;> rw [hl] at hs <;> simp at hs
  exact hi.update db.receipts hrows hi.receipt_ids_nodup
    (fun r hr hs => hi.ready_receipt r (hold r hr (.inl hs)) hs)
    (fun r hr hs => hi.creating_no_receipt r (hold r hr (.inr hs)) hs) hi.receipt_active

/-- The one transaction that breaks the pairing for a moment: the receipt goes in while its row is
`creating`, and the row is Ready before the commit.  The receipts are one more and the rows those
of the update, so this is `update` with the new list: the pairing is judged only at its end. -/
theorem complete (hi : db.Consistent) {jsonValid : String → Bool} {receipt : ReceiptRow}
    {assign : WorkspaceRow → WorkspaceRow} {mid : Database} {u : Unit} {n : ℕ}
    (ready : ∀ r, (assign r).state = "ready")
    (hinsert : db.insertReceipt jsonValid receipt = .ok (u, mid))
    (hupdate : mid.updateWorkspace receipt.workspaceId "creating" assign = .ok (n, db')) :
    db'.Consistent := by
  obtain ⟨rfl, hfresh, w, hw, hwid, hwstate⟩ := insertReceipt_ok hinsert
  obtain ⟨rows, hrows, rfl⟩ := updateWorkspace_ok hupdate
  refine hi.update (db.receipts ++ [receipt]) hrows
    (Sql.nodup_map_append hi.receipt_ids_nodup hfresh) (fun r hr hs => ?_)
    (fun r hr hs x hx => ?_) (fun x hx => ?_)
  · rcases (Sql.mem_updateWhere hrows).mp hr with ⟨hr, _⟩ | ⟨old, _, hcond, hcheck, rfl⟩
    · obtain ⟨x, hx, he⟩ := hi.ready_receipt r hr hs
      exact ⟨x, List.mem_append_left _ hx, he⟩
    · simp only [Bool.and_eq_true, beq_iff_eq] at hcond
      exact ⟨receipt, List.mem_append_right _ (List.mem_singleton_self _),
        hcond.1.symm.trans (checkUpdate_spec hcheck).1⟩
  · rcases (Sql.mem_updateWhere hrows).mp hr with ⟨hr, hcond⟩ | ⟨old, _, _, _, rfl⟩
    · rcases List.mem_append.mp hx with hx | hx
      · exact hi.creating_no_receipt r hr hs x hx
      · rw [List.mem_singleton.mp hx]
        intro he
        simp [← he, hs] at hcond
    · rw [ready old] at hs
      exact absurd hs (by decide)
  · rcases List.mem_append.mp hx with hx | hx
    · exact hi.receipt_active x hx
    · exact ⟨w, hw, by rw [hwid, List.mem_singleton.mp hx]⟩

/-- A deletion removes the row, cascades to its receipt and leaves the tombstone.  Uniqueness of
the keys makes the deleted row the only one with the identity of the tombstone, so no other row
loses its receipt and no active row is tombstoned. -/
theorem delete (hi : db.Consistent) {tombstone : TombstoneRow} {mid : Database} {u : Unit} {n : ℕ}
    (hinsert : db.insertTombstone tombstone = .ok (u, mid))
    (hdelete : mid.deleteWorkspace tombstone.workspaceId = .ok (n, db')) : db'.Consistent := by
  obtain ⟨rfl, w, hw, hwid, hwstate⟩ := insertTombstone_ok hinsert
  obtain ⟨_, htomb, hrows, hreceipts, hsub, hxsub⟩ := deleteWorkspace_ok hdelete
  have hkept : ∀ r ∈ db'.workspaces, r ∈ db.workspaces := fun r hr => ((hrows r).mp hr).1
  -- Identities are unique, so the row that goes is the only one with its identity.
  have hother : ∀ r ∈ db'.workspaces, r.workspaceId ≠ tombstone.workspaceId := by
    intro r hr he
    have hrw := Sql.eq_of_key_eq hi.ids_nodup (hkept r hr) hw (he.trans hwid.symm)
    have := ((hrows r).mp hr).2
    simp [Database.isDeleting, hrw, hwid, hwstate] at this
  have hgone : ∀ r ∈ db.workspaces, Database.isDeleting tombstone.workspaceId r = true →
      r.workspaceId = tombstone.workspaceId := fun r _ hd => by
    simp only [Database.isDeleting, Bool.and_eq_true, beq_iff_eq] at hd
    exact hd.1
  refine ⟨fun r hr => hi.checked r (hkept r hr), fun r hr => hi.same_volume r (hkept r hr),
    hi.ids_nodup.sublist (hsub.map _), hi.names_nodup.sublist (hsub.map _),
    hi.targets_nodup.sublist (hsub.map _), hi.receipt_ids_nodup.sublist (hxsub.map _),
    fun r hr hs => ?_, fun r hr hs x hx => ?_, fun x hx => ?_, fun t ht r hr => ?_⟩
  · obtain ⟨x, hx, he⟩ := hi.ready_receipt r (hkept r hr) hs
    refine ⟨x, (hreceipts x).mpr ⟨hx, fun w' hw' hd => ?_⟩, he⟩
    rw [hgone w' hw' hd, he]
    exact (hother r hr).symm
  · exact hi.creating_no_receipt r (hkept r hr) hs x ((hreceipts x).mp hx).1
  · obtain ⟨hx, hparent⟩ := (hreceipts x).mp hx
    obtain ⟨r, hr, he⟩ := hi.receipt_active x hx
    refine ⟨r, (hrows r).mpr ⟨hr, ?_⟩, he⟩
    by_contra hd
    exact hparent r hr (by simpa using hd) he
  · rw [htomb] at ht
    rcases List.mem_append.mp ht with ht | ht
    · exact hi.tombstones_inactive t ht r (hkept r hr)
    · rw [List.mem_singleton.mp ht]
      exact hother r hr

end Database.Consistent

/-! ### Steps and runs

The step lemma goes through the five changes, the run lemma is the induction over calls, and
the theorem reads the invariant in the terms of the records that the store hands out. -/

variable {db db' : Database}

/-- **One step.**  Every change keeps the invariant. -/
theorem Change.consistent (hi : db.Consistent) (h : Change db db') : db'.Consistent := by
  cases h with
  | unchanged => exact hi
  | reserved insert => exact hi.insertWorkspace insert
  | completed insert update => exact hi.complete (fun _ => rfl) insert update
  | left leaves update =>
    refine hi.leave (fun _ => ?_) update
    rcases leaves with rfl | rfl
    · exact .inl rfl
    · exact .inr rfl
  | deleted insert delete => exact hi.delete insert delete

/-- A tombstone is never removed.  Among the five kinds of change only a deletion touches the
tombstones, and it appends one. -/
theorem Change.tombstone_mem (h : Change db db') {t : TombstoneRow} (ht : t ∈ db.tombstones) :
    t ∈ db'.tombstones := by
  cases h with
  | unchanged => exact ht
  | reserved insert =>
    obtain ⟨rfl, _⟩ := insertWorkspace_ok insert
    exact ht
  | completed insert update =>
    obtain ⟨rfl, _⟩ := insertReceipt_ok insert
    obtain ⟨_, _, rfl⟩ := updateWorkspace_ok update
    exact ht
  | left leaves update =>
    obtain ⟨_, _, rfl⟩ := updateWorkspace_ok update
    exact ht
  | deleted insert delete =>
    obtain ⟨rfl, _⟩ := insertTombstone_ok insert
    obtain ⟨_, htomb, _⟩ := deleteWorkspace_ok delete
    rw [htomb]
    exact List.mem_append_left _ ht

variable (json : JsonLibrary) (installation : InstallationRecord)

/-- **The run.**  The invariant holds after any sequence of calls. -/
theorem consistent_runCalls (calls : List (Call × List Bool)) :
    (runCalls json installation (.initialized installation) calls).Consistent :=
  runCalls_preserves json installation (fun _ _ hi h => h.consistent hi)
    (Database.initialized_consistent installation) calls

/-- The table constraint of a row that passes its `CHECK`s. -/
theorem WorkspaceRow.check_spec {r : WorkspaceRow} (h : r.check = true) :
    (r.state = "error" ↔ r.lastErrorCode.isSome = true) ∧ r.createdAt ≤ r.updatedAt := by
  simp only [WorkspaceRow.check, Bool.and_eq_true, decide_eq_true_eq] at h
  obtain ⟨⟨_, htime⟩, hcode⟩ := h
  refine ⟨?_, htime⟩
  simp only [checkErrorCode, Bool.or_eq_true, Bool.and_eq_true, beq_iff_eq, bne_iff_ne,
    Option.any_eq_true] at hcode
  rcases hcode with ⟨hs, code, hcode, _⟩ | ⟨hs, hcode⟩
  · simp [hs, hcode]
  · simp only [hs, false_iff]
    simpa using hcode

/-- What holds of the tables after every run: the rows, the keys, the receipts
and the tombstones. -/
structure Database.StoreInvariant (db : Database) : Prop where
  error_code_iff : ∀ r ∈ db.workspaces, r.lastErrorCode.isSome = true ↔ r.state = "error"
  created_le_updated : ∀ r ∈ db.workspaces, r.createdAt ≤ r.updatedAt
  same_volume : ∀ r ∈ db.workspaces, r.sourceVolumeId = r.targetVolumeId
  distinct : db.workspaces.Pairwise fun a b =>
    a.workspaceId ≠ b.workspaceId ∧ a.name ≠ b.name ∧ a.targetPath ≠ b.targetPath
  ready_one_receipt : ∀ r ∈ db.workspaces, r.state = "ready" →
    db.receipts.countP (fun x => x.workspaceId == r.workspaceId) = 1
  creating_no_receipt : ∀ r ∈ db.workspaces, r.state = "creating" →
    db.receipts.countP (fun x => x.workspaceId == r.workspaceId) = 0
  receipt_active : ∀ x ∈ db.receipts, ∃ r ∈ db.workspaces, r.workspaceId = x.workspaceId
  not_active_and_tombstoned : ∀ r ∈ db.workspaces, ∀ t ∈ db.tombstones,
    r.workspaceId ≠ t.workspaceId

/-- A consistent database has the store's invariant.  The consistency that is carried through the
transactions says more, namely the uniqueness of every key; each part of the invariant is read off
one field of it. -/
theorem Database.Consistent.storeInvariant (hi : db.Consistent) : db.StoreInvariant where
  error_code_iff r hr := (WorkspaceRow.check_spec (hi.checked r hr)).1.symm
  created_le_updated r hr := (WorkspaceRow.check_spec (hi.checked r hr)).2
  same_volume := hi.same_volume
  distinct :=
    (List.pairwise_map.mp hi.ids_nodup).and
      ((List.pairwise_map.mp hi.names_nodup).and (List.pairwise_map.mp hi.targets_nodup))
  ready_one_receipt r hr hs := by
    obtain ⟨x, hx, he⟩ := hi.ready_receipt r hr hs
    rw [← he]
    exact Sql.countP_key_eq_one hi.receipt_ids_nodup hx
  creating_no_receipt r hr hs :=
    List.countP_eq_zero.mpr fun x hx => by simpa using hi.creating_no_receipt r hr hs x hx
  receipt_active := hi.receipt_active
  not_active_and_tombstoned r hr t ht := hi.tombstones_inactive t ht r hr

/-- **The store invariant.**  After every sequence of calls on a freshly
initialized database, with any arguments, timestamps and faults, the tables
satisfy `Database.StoreInvariant`; and an identity that is tombstoned then is
active after no continuation of the sequence. -/
theorem store_invariant_over_runs (calls : List (Call × List Bool)) :
    (runCalls json installation (.initialized installation) calls).StoreInvariant ∧
      ∀ t ∈ (runCalls json installation (.initialized installation) calls).tombstones,
        ∀ later : List (Call × List Bool),
          ∀ r ∈ (runCalls json installation (.initialized installation)
            (calls ++ later)).workspaces, r.workspaceId ≠ t.workspaceId := by
  refine ⟨(consistent_runCalls json installation calls).storeInvariant, fun t ht later => ?_⟩
  have hmem : t ∈ (runCalls json installation (.initialized installation)
      (calls ++ later)).tombstones := by
    rw [runCalls_append]
    exact runCalls_preserves json installation (P := fun db => t ∈ db.tombstones)
      (fun _ _ h hc => hc.tombstone_mem h) ht later
  exact (consistent_runCalls json installation (calls ++ later)).tombstones_inactive t hmem

end Metadata
end ThinWorkspace
