/-
# Steps of the world

What one port call does to the world of `ThinWorkspace.Application.Calls`: it
adds its event, it leaves the database with one `Metadata.Change`, and so keeps
the store's invariant.  `Calm` is the relation a part of a use case moves the
world along when it makes no call of a given kind.
-/

import ThinWorkspace.Application.Calls
import ThinWorkspace.Metadata.Invariant
import ThinWorkspace.Metadata.Outcome

namespace ThinWorkspace
namespace Application

open ThinWorkspace.Core Lib Ports
open Metadata (Store Database Change)

variable {json : JsonLibrary} {installation : InstallationRecord}
variable {w w₁ w₂ : World} {c : PortCall} {r : c.Result} {db db' : Database}

/-! ### One step

Whatever a port answers, a call adds its event and makes one change of the store, or none.
Invariants of the store are carried along a run of a use case by this. -/

/-- A metadata call leaves what its session leaves, or nothing new. -/
theorem StoreStep.leaves {α : Type} {session : Store α} {result : Except PortError α}
    {R : Database → Database → Prop} (hR : ∀ db, R db db) (hs : Session.Leaves R session)
    (h : StoreStep session db result db') : R db db' := by
  cases h with
  | returned run => exact hs.ok run
  | interrupted run => exact hs.error run
  | refused => exact hR db

/-- A step of a session has one of the effects that the store can have. -/
theorem StoreStep.change {α : Type} {session : Store α} {result : Except PortError α}
    (hs : Session.Leaves Change session) (h : StoreStep session db result db') :
    Change db db' :=
  h.leaves Change.refl hs

/-- A metadata call that returned ran its session to the end. -/
theorem StoreStep.ran {α : Type} {session : Store α} {a : α}
    (h : StoreStep session db (.ok a) db') :
    ∃ faults c, session ⟨db, faults⟩ = .ok a c ∧ db' = c.data := by
  cases h with
  | returned run => exact ⟨_, _, run, rfl⟩

/-- A metadata call that failed ran its session to a failure, or did nothing. -/
theorem StoreStep.failed {α : Type} {session : Store α} {e : PortError}
    (h : StoreStep session db (.error e) db') :
    (∃ c faults, session ⟨db, faults⟩ = .error e c ∧ db' = c.data) ∨ db' = db := by
  cases h with
  | interrupted run => exact .inl ⟨_, _, run, rfl⟩
  | refused => exact .inr rfl

/-- A failed transaction has changed nothing, wherever in it the failure occurred. -/
theorem StoreStep.failed_transaction {α : Type} {onBegin onCommit : PortError} {body : Store α}
    {e : PortError} (h : StoreStep (Session.transaction onBegin onCommit body) db (.error e) db') :
    db' = db := by
  cases h with
  | interrupted run => exact Session.transaction_error run
  | refused => rfl

/-- Listing the workspaces only reads, also where a row cannot be decoded. -/
theorem reads_workspaces : Session.Reads Metadata.workspaces :=
  Session.reads_query.bind fun _ => Session.reads_ofExcept

/-- Looking for a tombstone only reads, whatever is found. -/
theorem reads_deletionTombstone {id : WorkspaceId} :
    Session.Reads (Metadata.deletionTombstone installation id) :=
  Session.reads_query.bind fun
    | none => Session.reads_pure
    | some _ => Session.reads_ofExcept

/-- Reading a receipt on a volume only reads, also where it cannot be decoded. -/
theorem reads_readFinalMaterialization {id : WorkspaceId} {volume : VolumeId} :
    Session.Reads (Metadata.readFinalMaterialization json id volume) :=
  Session.reads_query.bind fun
    | none => Session.reads_pure
    | some _ => Session.reads_ofExcept

/-- Reading the final materialization only reads: the row first, and then its receipt. -/
theorem reads_finalMaterialization {id : WorkspaceId} :
    Session.Reads (Metadata.finalMaterialization json id) :=
  Metadata.reads_readWorkspace.bind fun
    | none => Session.reads_pure
    | some _ => reads_readFinalMaterialization

/-- Reading the summaries of a list only reads, by induction on the list. -/
theorem reads_readSummaries {records : List WorkspaceRecord} :
    Session.Reads (Metadata.readSummaries json records) := by
  induction records with
  | nil => exact Session.reads_pure
  | cons record records ih =>
    refine reads_readFinalMaterialization.bind fun
      | some _ => ih.bind fun _ => Session.reads_pure
      | none => Session.reads_require.bind fun _ => ih

/-- Taking a snapshot only reads: the records, and the summaries of their receipts. -/
theorem reads_inspectSnapshot : Session.Reads (inspectSnapshot json) := by
  have hlist : Session.Reads Metadata.readWorkspacesByWorkspaceId :=
    Session.reads_query.bind fun _ => Session.reads_ofExcept
  refine Session.Reads.bind (Session.leaves_transaction (fun _ => rfl) fun _ _ _ h => ?_) fun _ =>
    Session.reads_pure
  exact (hlist.bind fun _ => reads_readSummaries.bind fun _ => Session.reads_pure).ok h

/-- A list that was returned has the rows of the database. -/
theorem StoreStep.listed {records : List WorkspaceRecord}
    (h : StoreStep Metadata.workspaces db (.ok records) db') :
    (db.workspaces.mergeSort Metadata.WorkspaceRow.listedBefore).mapM
      Metadata.WorkspaceRow.intoRecord = .ok records := by
  obtain ⟨_, _, run, -⟩ := h.ran
  obtain ⟨_, -, run⟩ := Session.query_bind_ok run
  exact (Session.ofExcept_ok run).1

/-- A snapshot that was returned has the rows of the database. -/
theorem StoreStep.inspected {snapshot : MetadataSnapshot}
    (h : StoreStep (inspectSnapshot json) db (.ok snapshot) db') :
    (db.workspaces.mergeSort fun a b => decide (a.workspaceId ≤ b.workspaceId)).mapM
      Metadata.WorkspaceRow.intoRecord = .ok snapshot.workspaces := by
  obtain ⟨_, _, run, -⟩ := h.ran
  obtain ⟨⟨_, _⟩, _, hinspect, hrun⟩ := Session.bind_ok run
  obtain ⟨rfl, -⟩ := Session.pure_ok hrun
  obtain ⟨c₁, _, hbegin, hinspect, -⟩ := Session.transaction_ok hinspect
  obtain ⟨_, _, hread, hinspect⟩ := Session.bind_ok hinspect
  obtain ⟨_, _, _, hpure⟩ := Session.bind_ok hinspect
  obtain ⟨hpair, -⟩ := Session.pure_ok hpure
  obtain ⟨rfl, -⟩ := Prod.mk.inj hpair
  obtain ⟨_, -, hread⟩ := Session.query_bind_ok hread
  have hrows := (Session.ofExcept_ok hread).1
  rwa [hbegin] at hrows

/-- **One call, one change** of the database: whatever a port answers, what the call did is one of
the changes that the store can make. -/
theorem PortCall.effect_change (h : c.effect json installation db r db') : Change db db' := by
  cases c
  case inspectMetadata => exact h.change (reads_inspectSnapshot.leaves Change.refl)
  case workspaces => exact h.change (reads_workspaces.leaves Change.refl)
  case workspace => exact h.change (Metadata.reads_readWorkspace.leaves Change.refl)
  case deletionTombstone => exact h.change (reads_deletionTombstone.leaves Change.refl)
  case finalMaterialization => exact h.change (reads_finalMaterialization.leaves Change.refl)
  case reserveWorkspace => exact h.change (Metadata.reserveWorkspace_change _ _)
  case completeMaterialization =>
    exact h.change (Metadata.completeMaterialization_change _ _ _ _ _)
  case recordFailure => exact h.change (Metadata.recordFailure_change _ _ _ _)
  case beginRemoval => exact h.change (Metadata.beginRemoval_change _ _ _ _)
  case completeDeletion => exact h.change (Metadata.completeDeletion_change _ _ _)
  all_goals
    cases h
    exact .unchanged

/-- Every step adds its event to the history, so that what was called before can be spoken of. -/
theorem step_history (h : (portEnvironment json installation).step w c r w₁) :
    w₁.history = w.history ++ [⟨c, r⟩] := h.1

/-- Every step leaves a consistent database, since every change does. -/
theorem step_consistent (h : (portEnvironment json installation).step w c r w₁)
    (hw : w.db.Consistent) : w₁.db.Consistent :=
  (PortCall.effect_change h.2).consistent hw

/-! ### Parts that make no call of a kind

`Calm` is the frame of the use cases: a part without a call of some kind changes nothing
that is said in terms of such calls. -/

/-- The world moved on by calls that are all outside `kind`. -/
structure Calm (kind : PortCall → Bool) (w w' : World) : Prop where
  events : ∃ events, w'.history = w.history ++ events ∧ ∀ e ∈ events, kind e.call = false
  consistent : w.db.Consistent → w'.db.Consistent

variable {kind : PortCall → Bool}

/-- Nothing at all is calm: no event of the kind was added. -/
theorem Calm.refl (w : World) : Calm kind w w :=
  ⟨⟨[], by simp, by simp⟩, id⟩

/-- Two calm stretches are one, by the history and by the database. -/
theorem Calm.trans (h₁ : Calm kind w w₁) (h₂ : Calm kind w₁ w₂) : Calm kind w w₂ := by
  obtain ⟨⟨es₁, he₁, hk₁⟩, hc₁⟩ := h₁
  obtain ⟨⟨es₂, he₂, hk₂⟩, hc₂⟩ := h₂
  refine ⟨⟨es₁ ++ es₂, by rw [he₂, he₁, List.append_assoc], fun e he => ?_⟩, hc₂ ∘ hc₁⟩
  rcases List.mem_append.mp he with he | he
  · exact hk₁ e he
  · exact hk₂ e he

/-- A call outside of the kind is calm, whatever it answers. -/
theorem Calm.step (hk : kind c = false)
    (h : (portEnvironment json installation).step w c r w₁) : Calm kind w w₁ := by
  refine ⟨⟨[⟨c, r⟩], step_history h, fun e he => ?_⟩, step_consistent h⟩
  rw [List.mem_singleton.mp he]
  exact hk

/-- What was in the history still is, since a stretch only adds to it. -/
theorem Calm.mem (h : Calm kind w w₁) {e : Event} (he : e ∈ w.history) : e ∈ w₁.history := by
  obtain ⟨⟨es, hes, _⟩, _⟩ := h
  rw [hes]
  exact List.mem_append_left _ he

/-- A call of the kind that is in the history afterwards was in it before. -/
theorem Calm.mem_of_kind (h : Calm kind w w₁) {e : Event} (he : e ∈ w₁.history)
    (hk : kind e.call = true) : e ∈ w.history := by
  obtain ⟨⟨es, hes, hnot⟩, _⟩ := h
  rw [hes] at he
  rcases List.mem_append.mp he with he | he
  · exact he
  · rw [hnot e he] at hk
    cases hk

variable {α : Type} {guard : PortCall → World → Prop} {x : UseCase α}

/-- **Frame rule of the use cases.**  A part that issues no call of a kind is safe under any guard
that asks nothing of other calls, and is calm for that kind. -/
theorem calm_safe (hguard : ∀ c w, kind c = false → guard c w)
    (hx : Program.Only (fun c => kind c = false) x) :
    Program.Safe (portEnvironment json installation) guard (fun _ w' => Calm kind w w') x w :=
  hx.safe Calm.refl (fun _ _ _ => Calm.trans) hguard fun _ _ _ _ hk step => Calm.step hk step

/-! ### A small installation

One step of a run, written as a rule for whole runs, for the samples that follow a use case
call by call. -/

/-- A run goes on after a call: what follows is issued from the database and the history that the
call left. -/
theorem issues_after {next : c.Result → UseCase α} {c' : PortCall} (r : c.Result) (db' : Database)
    (effect : c.effect json installation w.db r db')
    (rest : ∃ w', Program.Issues (portEnvironment json installation) (next r)
      ⟨db', w.history ++ [⟨c, r⟩]⟩ c' w') :
    ∃ w', Program.Issues (portEnvironment json installation) (.call c next) w c' w' :=
  rest.imp fun _ run => .later ⟨rfl, effect⟩ run

/-- A run that ends goes on after a call. -/
theorem returns_after {next : c.Result → UseCase α} {outcome : Except UseCaseError α}
    {P : World → Prop} (r : c.Result) (db' : Database)
    (effect : c.effect json installation w.db r db')
    (rest : ∃ w', Program.Returns (portEnvironment json installation) (next r)
      ⟨db', w.history ++ [⟨c, r⟩]⟩ outcome w' ∧ P w') :
    ∃ w', Program.Returns (portEnvironment json installation) (.call c next) w outcome w' ∧
      P w' :=
  rest.imp fun _ run => ⟨.call ⟨rfl, effect⟩ run.1, run.2⟩

/-- The reservation is read back as it was made. -/
theorem sampleDatabase_workspace :
    StoreStep (Metadata.readWorkspace sampleReservation.workspaceId) sampleDatabase
      (.ok (some sampleRecord)) sampleDatabase :=
  @StoreStep.returned _ _ _ [] _ ⟨sampleDatabase, []⟩ rfl

end Application
end ThinWorkspace
