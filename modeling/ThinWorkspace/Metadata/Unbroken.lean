/-
# Ready for once only

Source: `WorkspaceState::transition` of `crates/thinws-core/src/workspace.rs` and
the guarded statements of `crates/thinws-metadata-sqlite/src/lib.rs`.

An identity that left Ready does not come back to it: its row moves on to Deleting
or Error, and a deleted row leaves a tombstone that no reservation passes.  So an
identity that is Ready in two states of a run is Ready in every state between them
(`ready_between`).
-/

import ThinWorkspace.Lib.Chain
import ThinWorkspace.Metadata.Invariant

namespace ThinWorkspace
namespace Metadata

open ThinWorkspace.Core Lib Ports

variable {db db' : Database} {row : WorkspaceRow} {id : WorkspaceId}

/-- The row of the identity is Ready, in this state of the database. -/
def Database.ReadyAt (db : Database) (id : WorkspaceId) : Prop :=
  ∃ row ∈ db.workspaces, row.workspaceId = id.toText ∧ row.state = "ready"

/-- The identity has left Ready, or will never be Ready. -/
def Database.Over (db : Database) (id : WorkspaceId) : Prop :=
  (∃ row ∈ db.workspaces, row.workspaceId = id.toText ∧
    (row.state = "deleting" ∨ row.state = "error")) ∨
  ∃ t ∈ db.tombstones, t.workspaceId = id.toText

/-- What an update does to the state of a row. -/
theorem updateWorkspace_state {workspaceId expected state : String}
    {assign : WorkspaceRow → WorkspaceRow} {n : ℕ}
    (h : db.updateWorkspace workspaceId expected assign = .ok (n, db'))
    (hassign : ∀ r, (assign r).workspaceId = r.workspaceId ∧ (assign r).state = state)
    (hrow : row ∈ db.workspaces) :
    ∃ row' ∈ db'.workspaces, row'.workspaceId = row.workspaceId ∧
      (row'.state = row.state ∨ row.state = expected ∧ row'.state = state) := by
  obtain ⟨rows, hrows, rfl⟩ := updateWorkspace_ok h
  obtain ⟨-, rfl, -⟩ := Sql.updateWhere_ok hrows
  refine ⟨_, List.mem_map_of_mem hrow, ?_⟩
  by_cases hcond : (row.workspaceId == workspaceId && row.state == expected) = true
  · rw [if_pos hcond]
    rw [Bool.and_eq_true, beq_iff_eq, beq_iff_eq] at hcond
    exact ⟨(hassign row).1, .inr ⟨hcond.2, (hassign row).2⟩⟩
  · rw [if_neg hcond]
    exact ⟨rfl, .inl rfl⟩

/-- **One step.**  A change keeps the state of a row, completes a row that was being
created, moves it to Deleting or Error, or deletes it behind its tombstone. -/
theorem Change.row_state (h : Change db db') (hrow : row ∈ db.workspaces) :
    (∃ row' ∈ db'.workspaces, row'.workspaceId = row.workspaceId ∧
      (row'.state = row.state ∨ row.state = "creating" ∨
        row'.state = "deleting" ∨ row'.state = "error")) ∨
    ∃ t ∈ db'.tombstones, t.workspaceId = row.workspaceId := by
  cases h with
  | unchanged => exact .inl ⟨row, hrow, rfl, .inl rfl⟩
  | reserved insert =>
    obtain ⟨rfl, _⟩ := insertWorkspace_ok insert
    exact .inl ⟨row, List.mem_append_left _ hrow, rfl, .inl rfl⟩
  | completed insert update =>
    obtain ⟨rfl, _⟩ := insertReceipt_ok insert
    obtain ⟨row', hrow', hid, hstate⟩ :=
      updateWorkspace_state update (fun _ => ⟨rfl, rfl⟩) hrow
    rcases hstate with hstate | ⟨hstate, -⟩
    · exact .inl ⟨row', hrow', hid, .inl hstate⟩
    · exact .inl ⟨row', hrow', hid, .inr (.inl hstate)⟩
  | left leaves update =>
    obtain ⟨row', hrow', hid, hstate⟩ :=
      updateWorkspace_state update (fun _ => ⟨rfl, rfl⟩) hrow
    rcases hstate with hstate | ⟨-, hstate⟩
    · exact .inl ⟨row', hrow', hid, .inl hstate⟩
    · rcases leaves with rfl | rfl
      · exact .inl ⟨row', hrow', hid, .inr (.inr (.inr hstate))⟩
      · exact .inl ⟨row', hrow', hid, .inr (.inr (.inl hstate))⟩
  | @deleted tombstone _ _ insert delete =>
    obtain ⟨rfl, _⟩ := insertTombstone_ok insert
    obtain ⟨_, htomb, hrows, _⟩ := deleteWorkspace_ok delete
    by_cases hgone : Database.isDeleting tombstone.workspaceId row = true
    · simp only [Database.isDeleting, Bool.and_eq_true, beq_iff_eq] at hgone
      refine .inr ⟨tombstone, ?_, hgone.1.symm⟩
      rw [htomb]
      exact List.mem_append_right _ (List.mem_singleton_self _)
    · exact .inl ⟨row, (hrows row).mpr ⟨hrow, by simpa using hgone⟩, rfl, .inl rfl⟩

/-- What is Ready stays so, or its time as a Ready workspace is over. -/
theorem Change.ready_leaves (h : Change db db') (hready : db.ReadyAt id) :
    db'.ReadyAt id ∨ db'.Over id := by
  obtain ⟨row, hrow, hid, hstate⟩ := hready
  rcases h.row_state hrow with ⟨row', hrow', hid', hstate'⟩ | ⟨t, ht, hid'⟩
  · rw [hstate] at hstate'
    rcases hstate' with hstate' | hcreating | hover
    · exact .inl ⟨row', hrow', hid'.trans hid, hstate'⟩
    · exact absurd hcreating (by decide)
    · exact .inr (.inl ⟨row', hrow', hid'.trans hid, hover⟩)
  · exact .inr (.inr ⟨t, ht, hid'.trans hid⟩)

/-- What is over stays over. -/
theorem Change.over_stays (h : Change db db') (hover : db.Over id) : db'.Over id := by
  rcases hover with ⟨row, hrow, hid, hstate⟩ | ⟨t, ht, hid⟩
  · rcases h.row_state hrow with ⟨row', hrow', hid', hstate'⟩ | ⟨t, ht, hid'⟩
    · refine .inl ⟨row', hrow', hid'.trans hid, ?_⟩
      rcases hstate' with hsame | hcreating | hmoved
      · rwa [hsame]
      · rw [hcreating] at hstate
        exact absurd hstate (by decide)
      · exact hmoved
    · exact .inr ⟨t, ht, hid'.trans hid⟩
  · exact .inr ⟨t, h.tombstone_mem ht, hid⟩

/-- What is over is not Ready. -/
theorem Database.Over.not_ready (hdb : db.Consistent) (hover : db.Over id) : ¬db.ReadyAt id := by
  rintro ⟨row, hrow, hid, hstate⟩
  rcases hover with ⟨other, hother, hid', hstate'⟩ | ⟨t, ht, hid'⟩
  · rw [Sql.eq_of_key_eq hdb.ids_nodup hother hrow (hid'.trans hid.symm), hstate] at hstate'
    exact absurd hstate' (by decide)
  · exact hdb.tombstones_inactive t ht row hrow (hid.trans hid'.symm)

/-- **Unbroken.**  Between two states of a run in which an identity is Ready it is
Ready throughout, whatever the changes between them are. -/
theorem ready_between (hdb : db.Consistent) {states : List Database}
    (h : (db :: states).IsChain Change) (hready : db.ReadyAt id)
    (hlast : (db :: states).getLast? = some db') (hend : db'.ReadyAt id) :
    ∀ x ∈ db :: states, x.ReadyAt id := by
  have hend' : db'.Consistent := Chain.forall_mem (fun _ _ h hx => h.consistent hx) h hdb db'
    (List.mem_of_getLast? hlast)
  have hthroughout := Chain.unbroken (P := fun x => x.Consistent ∧ x.ReadyAt id)
    (Q := fun x => x.Consistent ∧ x.Over id)
    (fun _ _ hchange hx => (hchange.ready_leaves hx.2).imp
      (fun hr => ⟨hchange.consistent hx.1, hr⟩) fun ho => ⟨hchange.consistent hx.1, ho⟩)
    (fun _ _ hchange hx => ⟨hchange.consistent hx.1, hchange.over_stays hx.2⟩)
    (fun _ hover hx => hover.2.not_ready hover.1 hx.2) h ⟨hdb, hready⟩ hlast ⟨hend', hend⟩
  exact fun x hx => (hthroughout x hx).2

end Metadata
end ThinWorkspace
