/-
# The paths of the active workspaces

Every creation compares the requested target with the protected paths of the
active rows, and no later call adds a row or moves one, so the active rows stand
apart in every database that creations and removals reach, each stopped anywhere
(`active_paths_apart`).  The identifier of a creation is fresh: its text is in no
target that is already registered.
-/

import ThinWorkspace.Application.CreateOutcome
import ThinWorkspace.Application.RemovalOrder
import ThinWorkspace.Linux.Siblings
import ThinWorkspace.Metadata.Rows

namespace ThinWorkspace
namespace Application

open ThinWorkspace.Core Lib Ports
open Metadata (Database recordRow)
open Program (Only Safe)

variable {json : JsonLibrary} {installation : InstallationRecord} {db db' : Database}

/-! ### The invariant

The active rows are records below the root, and the protected paths of any two are apart.  A
reservation keeps this when it was compared with every row and its identifier is fresh;
everything else adds no row. -/

/-- The active rows are records below the root whose protected paths are apart. -/
structure Occupancy (db : Database) : Prop where
  consistent : db.Consistent
  encoded : db.Encoded
  below : ∀ record, recordRow record ∈ db.workspaces →
    record.reservation.targetPath.asBytes ≠ [slash]
  apart : ∀ a b, recordRow a ∈ db.workspaces → recordRow b ∈ db.workspaces →
    a.reservation.workspaceId ≠ b.reservation.workspaceId →
      AllApart a.reservation.targetPath a.reservation.workspaceId b.reservation.targetPath
        b.reservation.workspaceId

/-- In a new installation nothing is occupied, since there is no row. -/
theorem Occupancy.initialized (installation : InstallationRecord) :
    Occupancy (.initialized installation) where
  consistent := Metadata.Database.initialized_consistent installation
  encoded _ hrow := absurd hrow List.not_mem_nil
  below _ hrow := absurd hrow List.not_mem_nil
  apart _ _ hrow := absurd hrow List.not_mem_nil

/-- Where a record of an inheriting database comes from. -/
theorem Occupancy.origin (h : Occupancy db) (hinherits : db.Inherits db') {record : WorkspaceRecord}
    (hrow : recordRow record ∈ db'.workspaces) : ∃ old, recordRow old ∈ db.workspaces ∧
      old.reservation.workspaceId = record.reservation.workspaceId ∧
      old.reservation.targetPath = record.reservation.targetPath := by
  obtain ⟨row, hmem, hid, htarget⟩ := hinherits _ hrow
  obtain ⟨old, rfl⟩ := h.encoded row hmem
  exact ⟨old, hmem, WorkspaceId.toText_injective hid, AbsolutePath.asBytes_injective htarget⟩

/-- A step that adds no row keeps the invariant. -/
theorem Occupancy.inherit (h : Occupancy db) (hinherits : db.Inherits db')
    (hchange : Metadata.Change db db') : Occupancy db' where
  consistent := hchange.consistent h.consistent
  encoded := hchange.encoded h.encoded
  below record hrow := by
    obtain ⟨old, hold, _, htarget⟩ := h.origin hinherits hrow
    exact htarget ▸ h.below old hold
  apart a b ha hb hne := by
    obtain ⟨a', ha', hida, hta⟩ := h.origin hinherits ha
    obtain ⟨b', hb', hidb, htb⟩ := h.origin hinherits hb
    rw [← hida, ← hidb] at hne ⊢
    rw [← hta, ← htb]
    exact h.apart a' b' ha' hb' hne

/-- What a creation has checked before it makes its reservation. -/
structure Checked (db : Database) (reservation : WorkspaceReservation) : Prop where
  below : reservation.targetPath.asBytes ≠ [slash]
  apart : ∀ record, recordRow record ∈ db.workspaces →
    ∀ p ∈ protectedPaths record.reservation.targetPath record.reservation.workspaceId,
      Apart p reservation.targetPath

/-- The text of the identifier is in no registered target. -/
def Fresh (db : Database) (id : WorkspaceId) : Prop :=
  ∀ row ∈ db.workspaces, ¬asBytes id.toText <:+: row.targetPath

/-- A checked reservation of a fresh identifier keeps the invariant.  Old rows stand apart already,
and the new one was compared with each of them by its path before it was inserted. -/
theorem Occupancy.reserve (h : Occupancy db) {reservation : WorkspaceReservation}
    (hchecked : Checked db reservation) (hfresh : Fresh db reservation.workspaceId)
    (hinsert : db.insertWorkspace (Metadata.reservationRow reservation) = .ok ((), db')) :
    Occupancy db' := by
  have hchange : Metadata.Change db db' := .reserved hinsert
  obtain ⟨hdb, -⟩ := Metadata.insertWorkspace_ok hinsert
  have hrows : ∀ record, recordRow record ∈ db'.workspaces → recordRow record ∈ db.workspaces ∨
      record.reservation.workspaceId = reservation.workspaceId ∧
        record.reservation.targetPath = reservation.targetPath := by
    intro record hrow
    rw [hdb] at hrow
    rcases List.mem_append.mp hrow with hrow | hrow
    · exact .inl hrow
    · have he := List.mem_singleton.mp hrow
      have hid : record.reservation.workspaceId.toText = reservation.workspaceId.toText :=
        congrArg (·.workspaceId) he
      have htarget : record.reservation.targetPath.asBytes = reservation.targetPath.asBytes :=
        congrArg (·.targetPath) he
      exact .inr ⟨WorkspaceId.toText_injective hid, AbsolutePath.asBytes_injective htarget⟩
  -- The new row against an old one: what was checked is enough.
  have hnew : ∀ old, recordRow old ∈ db.workspaces →
      old.reservation.workspaceId ≠ reservation.workspaceId →
        AllApart old.reservation.targetPath old.reservation.workspaceId reservation.targetPath
          reservation.workspaceId := by
    intro old hold hne
    exact allApart_of_checked hne (hchecked.apart old hold) (hfresh _ hold)
  constructor
  case consistent => exact hchange.consistent h.consistent
  case encoded => exact hchange.encoded h.encoded
  case below =>
    intro record hrow
    rcases hrows record hrow with hrow | ⟨-, htarget⟩
    · exact h.below record hrow
    · rw [htarget]
      exact hchecked.below
  case apart =>
    intro a b ha hb hne
    rcases hrows a ha with ha | ⟨hida, hta⟩
    · rcases hrows b hb with hb | ⟨hidb, htb⟩
      · exact h.apart a b ha hb hne
      · rw [hidb, htb]
        exact hnew a ha (hidb ▸ hne)
    · rcases hrows b hb with hb | ⟨hidb, -⟩
      · rw [hida, hta]
        exact (hnew b hb (hida ▸ hne.symm)).symm
      · exact absurd (hida.trans hidb.symm) hne

/-! ### Creations

A creation compares under the lock, so the rows it read are the rows at its reservation.
The observations are followed to see that the comparison was made for each of them. -/

variable {request : CreateRequest} {materializers : Materializers} {w : World} {α : Type}
  {x : UseCase α} {start : Database}

/-- When a creation that began on `start` may make a reservation. -/
def reserveGuard (start : Database) : PortCall → World → Prop
  | .reserveWorkspace reservation, w =>
    w.db = start ∧ Checked start reservation ∧
      ⟨.newWorkspaceId, reservation.workspaceId⟩ ∈ w.history
  | _, _ => True

/-- A call that makes no reservation may be made at any time. -/
theorem reserveGuard_of_not_isReserve (c : PortCall) (w : World) (h : c.isReserve = false) :
    reserveGuard start c w := by
  cases c <;> first | cases h; done | trivial

/-- A part that only reads the store leaves the database, and so makes no reservation. -/
theorem unreserved_part (hx : Only (fun c => c.writesStore = false) x) :
    Safe (portEnvironment json installation) (reserveGuard start)
      (fun _ w' => Calm PortCall.writesStore w w' ∧ w'.db = w.db) x w :=
  reading_part_guarded
    (fun c w h => reserveGuard_of_not_isReserve c w (not_isReserve_of_not_writesStore c h)) hx

/-- A last part without a reservation is safe, whatever it does after the one that was made. -/
theorem unreserved_rest (hx : Only (fun c => c.isReserve = false) x) :
    Safe (portEnvironment json installation) (reserveGuard start) (fun _ _ => True) x w :=
  (calm_safe reserveGuard_of_not_isReserve hx).mono fun _ _ _ => trivial

/-- What the observations before a reservation have established. -/
structure Observed (request : CreateRequest) (active : List WorkspaceRecord)
    (reservation : WorkspaceReservation) (w : World) : Prop where
  target : reservation.targetPath = request.target
  below : request.target.asBytes ≠ [slash]
  apart : requireNoActiveWorkspacePathOverlap request.target active = .ok ()
  generated : ⟨.newWorkspaceId, reservation.workspaceId⟩ ∈ w.history

/-- The observations make no reservation, and lead to one that they have checked against every
active row.  The two overlap checks are what matters; the other steps leave the database as it is.
-/
theorem observe_safe {identity : InstallationIdentity} {active : List WorkspaceRecord} :
    Safe (portEnvironment json installation) (reserveGuard start)
      (fun outcome w' => w'.db = w.db ∧ ∀ reservation, outcome = .ok reservation →
        Observed request active reservation w')
      (observe request identity active) w := by
  refine safe_check_bind (fun _ hoverlap => ?_) fun e _ => ⟨rfl, fun _ h => by cases h⟩
  refine Safe.bind (x := port _ _) (unreserved_part (Only.orFail (only_call rfl)))
    (fun source w₁ h₁ => ?_) fun e w₁ h₁ => ⟨h₁.2, fun _ h => by cases h⟩
  refine safe_check_bind (fun _ _ => ?_) fun e _ => ⟨h₁.2, fun _ h => by cases h⟩
  refine Safe.bind (x := port _ _) (unreserved_part (Only.orFail (only_call rfl)))
    (fun root w₂ h₂ => ?_) fun e w₂ h₂ => ⟨h₂.2.trans h₁.2, fun _ h => by cases h⟩
  have hdb₂ := h₂.2.trans h₁.2
  refine Safe.bind (x := unlessFail _ _) (unreserved_part only_unlessFail)
    (fun _ w₃ h₃ => ?_) fun e w₃ h₃ => ⟨h₃.2.trans hdb₂, fun _ h => by cases h⟩
  have hdb₃ := h₃.2.trans hdb₂
  refine safe_check_bind (fun parent hparent => ?_) fun e _ => ⟨hdb₃, fun _ h => by cases h⟩
  have hbelow : request.target.asBytes ≠ [slash] := by
    intro hroot
    obtain ⟨e, he⟩ := targetParent_root hroot
    rw [he] at hparent
    cases hparent
  refine ⟨trivial, fun workspaceId w₄ h₄ => ?_⟩
  have hdb₄ : w₄.db = w.db := (step_reading rfl h₄).trans hdb₃
  have hgenerated : (⟨.newWorkspaceId, workspaceId⟩ : Event) ∈ w₄.history := by
    rw [step_history h₄]
    exact List.mem_append_right _ (List.mem_singleton_self _)
  refine safe_check_bind (fun probe _ => ?_) fun e _ => ⟨hdb₄, fun _ h => by cases h⟩
  refine Safe.bind (x := port _ _) (unreserved_part (Only.orFail (only_call rfl)))
    (fun preliminary w₅ h₅ => ?_) fun e w₅ h₅ => ⟨h₅.2.trans hdb₄, fun _ h => by cases h⟩
  have hdb₅ := h₅.2.trans hdb₄
  refine safe_check_bind (fun _ _ => ?_) fun e _ => ⟨hdb₅, fun _ h => by cases h⟩
  refine Safe.bind (x := requireNoIdentityOverlap _ _)
    (unreserved_part (only_requireNoIdentityOverlap fun _ => rfl))
    (fun _ w₆ h₆ => ?_) fun e w₆ h₆ => ⟨h₆.2.trans hdb₅, fun _ h => by cases h⟩
  have hdb₆ := h₆.2.trans hdb₅
  refine safe_check_bind (fun _ _ => ?_) fun e _ => ⟨hdb₆, fun _ h => by cases h⟩
  refine Safe.bind (x := unlessFail _ _) (unreserved_part only_unlessFail)
    (fun _ w₇ h₇ => ?_) fun e w₇ h₇ => ⟨h₇.2.trans hdb₆, fun _ h => by cases h⟩
  have hdb₇ := h₇.2.trans hdb₆
  refine safe_check_bind (fun plan _ => ?_) fun e _ => ⟨hdb₇, fun _ h => by cases h⟩
  refine ⟨hdb₇, fun reservation h => ?_⟩
  obtain rfl := Except.ok.inj h
  exact ⟨rfl, hbelow, hoverlap, h₇.1.mem (h₆.1.mem (h₅.1.mem hgenerated))⟩

/-- The list a creation reads has every active record. -/
theorem mem_workspaces {active : List WorkspaceRecord}
    (h : StoreStep Metadata.workspaces db (.ok active) db') {record : WorkspaceRecord}
    (hrow : recordRow record ∈ db.workspaces) : record ∈ active := by
  obtain ⟨faults, c, run, -⟩ := h.ran
  obtain ⟨c₁, -, run⟩ := Session.query_bind_ok run
  obtain ⟨hrecords, -⟩ := Session.ofExcept_ok run
  obtain ⟨read, hread, he⟩ := (Fallible.mem_mapM_ok hrecords).1 _ (List.mem_mergeSort.mpr hrow)
  rwa [← Metadata.recordRow_unique he]

/-- **The reservation is checked.**  Where a creation reserves, its target was compared with the
protected paths of every active row, and its identifier is fresh. -/
theorem createImpl_reserves :
    Safe (portEnvironment json installation) (reserveGuard start) (fun _ _ => True)
      (createImpl request materializers) ⟨start, []⟩ := by
  refine Safe.bind (x := unlessFail _ _) (unreserved_part only_unlessFail)
    (fun _ w₁ h₁ => ?_) fun _ _ _ => trivial
  refine Safe.bind (x := readIdentity) (unreserved_part ((only_readIdentity.mono
    observes_of_opensStore).mono not_writesStore_of_observes))
    (fun identity w₂ h₂ => ?_) fun _ _ _ => trivial
  refine Safe.bind (x := unlessFail _ _) (unreserved_part only_unlessFail)
    (fun _ w₃ h₃ => ?_) fun _ _ _ => trivial
  refine Safe.bind (x := openMetadata _ _) (unreserved_part ((only_openMetadata.mono
    observes_of_opensStore).mono not_writesStore_of_observes))
    (fun _ w₄ h₄ => ?_) fun _ _ _ => trivial
  have hdb₄ : w₄.db = start := h₄.2.trans (h₃.2.trans (h₂.2.trans h₁.2))
  have hworkspaces : Safe (portEnvironment json installation) (reserveGuard start)
      (fun outcome w' => w'.db = start ∧ ∀ active, outcome = .ok active →
        ∀ record, recordRow record ∈ start.workspaces → record ∈ active)
      (port .metadata (call .workspaces)) w₄ := by
    refine ⟨trivial, fun listed w₅ h₅ => ?_⟩
    have hdb₅ : w₅.db = start := (step_reading rfl h₅).trans hdb₄
    rcases listed with e | active
    · exact ⟨hdb₅, fun _ h => by cases h⟩
    · refine ⟨hdb₅, fun _ h record hrow => ?_⟩
      obtain rfl := Except.ok.inj h
      exact mem_workspaces h₅.2 (hdb₄.symm ▸ hrow)
  refine Safe.bind (x := port _ _) hworkspaces (fun active w₅ h₅ => ?_) fun _ _ _ => trivial
  obtain ⟨hdb₅, hlisted⟩ := h₅
  cases findByName request.name active with
  | some existing =>
    exact (unreserved_part (only_createExisting.mono not_writesStore_of_observes)).mono
      fun _ _ _ => trivial
  | none =>
    refine Safe.bind (x := observe _ _ _) observe_safe (fun reservation w₆ h₆ => ?_)
      fun _ _ _ => trivial
    obtain ⟨hdb₆, hobserved⟩ := h₆
    have h := hobserved reservation rfl
    have hchecked : Checked start reservation := by
      constructor
      · rw [h.target]
        exact h.below
      · intro record hrow
        rw [h.target]
        exact requireNoActiveWorkspacePathOverlap_ok h.apart record
          (hlisted active rfl record hrow)
    refine ⟨⟨hdb₆.trans hdb₅, hchecked, h.generated⟩, fun reserved w₇ h₇ => ?_⟩
    rcases reserved with e | record
    · trivial
    · show Safe _ _ _ (do
        let result ← ((createReserved request materializers identity.dataRoot
          reservation).mapError fun error => error.withWorkspaceId reservation.workspaceId).attempt
        recordOutcome request reservation.workspaceId result) w₇
      exact unreserved_rest
        (Only.bind only_createReserved.mapError.attempt fun _ => only_recordOutcome)

/-! ### Removals

A removal makes no reservation, so it can only take rows away. -/

/-- A call that accompanies a removal makes no reservation. -/
theorem not_isReserve_of_accompanies (c : PortCall) (h : c.accompanies = true) :
    c.isReserve = false := by
  cases c <;> first | rfl | cases h

/-- A call about a removed record makes no reservation. -/
theorem not_isReserve_of_removes {active : WorkspaceRecord} (c : PortCall)
    (h : c.Removes active) : c.isReserve = false := by
  cases c <;> first | rfl | cases h

/-- **A removal makes no reservation**, so it adds no row to the active ones. -/
theorem only_remove {request : RemoveRequest} :
    Only (fun c => c.isReserve = false) (remove request) := by
  refine Only.bind ((only_readIdentity.mono accompanies_of_opensStore).mono
    not_isReserve_of_accompanies) fun identity => ?_
  refine Only.bind ((only_openMetadata.mono accompanies_of_opensStore).mono
    not_isReserve_of_accompanies) fun _ => ?_
  exact Only.bind (only_selectActive rfl (fun _ => rfl) fun _ => rfl) fun
    | none => only_removeAbsent.mono not_isReserve_of_accompanies
    | some active => removes_removeActive.mono not_isReserve_of_removes

/-! ### Runs

The step lemma on a single call, and the run over creations and removals that are stopped
anywhere. -/

/-- A call that makes no reservation adds no row.  There is one case for each call of the store,
and each of the others leaves the database alone. -/
theorem PortCall.effect_inherits {c : PortCall} {r : c.Result} (hc : c.isReserve = false)
    (h : c.effect json installation db r db') : db.Inherits db' := by
  cases c
  case reserveWorkspace => cases hc
  case inspectMetadata =>
    exact h.leaves Database.Inherits.refl (reads_inspectSnapshot.leaves Database.Inherits.refl)
  case workspaces =>
    exact h.leaves Database.Inherits.refl (reads_workspaces.leaves Database.Inherits.refl)
  case workspace =>
    exact h.leaves Database.Inherits.refl
      (Metadata.reads_readWorkspace.leaves Database.Inherits.refl)
  case deletionTombstone =>
    exact h.leaves Database.Inherits.refl (reads_deletionTombstone.leaves Database.Inherits.refl)
  case finalMaterialization =>
    exact h.leaves Database.Inherits.refl
      (reads_finalMaterialization.leaves Database.Inherits.refl)
  case completeMaterialization =>
    exact h.leaves Database.Inherits.refl Metadata.completeMaterialization_inherits
  case recordFailure => exact h.leaves Database.Inherits.refl Metadata.recordFailure_inherits
  case beginRemoval => exact h.leaves Database.Inherits.refl Metadata.beginRemoval_inherits
  case completeDeletion => exact h.leaves Database.Inherits.refl Metadata.completeDeletion_inherits
  all_goals
    cases h
    exact .refl db

/-- **One call.**  A call that makes no reservation, or the one a creation has checked for, keeps
the invariant.  The only call that adds a row is the reservation, and its guard says that it was
checked against the rows that are there and has a fresh identifier. -/
theorem Occupancy.step {w' : World} {c : PortCall} {r : c.Result}
    (hfresh : ∀ id, ⟨.newWorkspaceId, id⟩ ∈ w.history → Fresh start id)
    (hguard : reserveGuard start c w) (h : Occupancy w.db)
    (hstep : (portEnvironment json installation).step w c r w') : Occupancy w'.db := by
  have hchange := PortCall.effect_change hstep.2
  by_cases hc : c.isReserve = false
  · exact h.inherit (PortCall.effect_inherits hc hstep.2) hchange
  cases c
  case reserveWorkspace reservation =>
    obtain ⟨hdb, hchecked, hgenerated⟩ := hguard
    have hleaves : w'.db = w.db ∨
        w.db.insertWorkspace (Metadata.reservationRow reservation) = .ok ((), w'.db) :=
      hstep.2.leaves (R := fun db db' => db' = db ∨
        db.insertWorkspace (Metadata.reservationRow reservation) = .ok ((), db'))
        (fun _ => .inl rfl)
        (Metadata.reserveWorkspace_leaves (fun _ => .inl rfl) fun _ _ => .inr)
    rcases hleaves with he | hinsert
    · exact he ▸ h
    · exact h.reserve (hdb.symm ▸ hchecked) (hdb.symm ▸ hfresh _ hgenerated) hinsert
  all_goals exact absurd rfl hc

/-- The databases that creations and removals reach one after another, each
stopped anywhere, from the initialized one.  The identifiers that a creation
generates are fresh. -/
inductive Reached (json : JsonLibrary) (installation : InstallationRecord) : Database → Prop
  | initialized : Reached json installation (.initialized installation)
  | created {db : Database} {request : CreateRequest} {materializers : Materializers} {w : World}
      (before : Reached json installation db)
      (run : Program.Visits (portEnvironment json installation) (createImpl request materializers)
        ⟨db, []⟩ w)
      (fresh : ∀ id, ⟨.newWorkspaceId, id⟩ ∈ w.history → Fresh db id) :
      Reached json installation w.db
  | removed {db : Database} {request : RemoveRequest} {w : World}
      (before : Reached json installation db)
      (run : Program.Visits (portEnvironment json installation) (remove request) ⟨db, []⟩ w) :
      Reached json installation w.db

/-- **The run.**  The active rows stand apart in every reached database.  The induction is on the
sequence of creations, stopped anywhere; along one of them the invariant holds as long as what was
generated is fresh. -/
theorem Reached.occupancy (h : Reached json installation db) : Occupancy db := by
  induction h with
  | initialized => exact .initialized installation
  | @created start request materializers w _ run fresh ih =>
    -- The invariant of the run: whatever has been generated so far is fresh.
    have hinv := createImpl_reserves.of_visits
      (fun w => (∀ id, ⟨.newWorkspaceId, id⟩ ∈ w.history → Fresh start id) →
        Occupancy w.db) (fun _ => ih) ?_ run
    · exact hinv fresh
    · intro w₁ c r w₂ hguard hw₁ hstep hfresh
      have hfresh₁ : ∀ id, ⟨.newWorkspaceId, id⟩ ∈ w₁.history → Fresh start id := by
        intro id he
        refine hfresh id ?_
        rw [step_history hstep]
        exact List.mem_append_left _ he
      exact Occupancy.step hfresh₁ hguard (hw₁ hfresh₁) hstep
  | @removed start request w _ run ih =>
    have hsafe : Safe (portEnvironment json installation) (fun c _ => c.isReserve = false)
        (fun _ _ => True) (remove request) ⟨start, []⟩ :=
      only_remove.safe (R := fun _ _ => True) (fun _ => trivial) (fun _ _ _ _ _ => trivial)
        (fun _ _ h => h) fun _ _ _ _ _ _ => trivial
    refine hsafe.of_visits (fun w => Occupancy w.db) ih (fun w₁ c r w₂ hc hw₁ hstep => ?_) run
    exact hw₁.inherit (PortCall.effect_inherits hc hstep.2) (PortCall.effect_change hstep.2)

/-- What the active rows of a database are: every one is the row of a record whose
four protected paths the application computes and the Linux adapter derives, and
no protected path of one row is, or lies above or below, one of another. -/
structure ActivePathsApart (db : Database) : Prop where
  derived : ∀ row ∈ db.workspaces, ∃ record staging trash isolated,
    row.intoRecord = .ok record ∧
      activeWorkspaceProtectedPaths record.reservation =
        .ok [record.reservation.targetPath, staging, trash, isolated] ∧
      Linux.DerivesSiblings record.reservation.targetPath record.reservation.workspaceId staging
        trash isolated
  disjoint : ∀ row ∈ db.workspaces, ∀ row' ∈ db.workspaces, row ≠ row' →
    ∀ record record' paths paths', row.intoRecord = .ok record → row'.intoRecord = .ok record' →
      activeWorkspaceProtectedPaths record.reservation = .ok paths →
      activeWorkspaceProtectedPaths record'.reservation = .ok paths' →
        ∀ p ∈ paths, ∀ q ∈ paths', Apart p q

/-- **Active workspaces occupy disjoint paths** in every database that creations and removals
reach, each of them stopped anywhere: no protected path of one row is equal to, above or below one
of another row. -/
theorem active_paths_apart (json : JsonLibrary) (installation : InstallationRecord)
    (db : Database) (h : Reached json installation db) : ActivePathsApart db := by
  have hinv := h.occupancy
  constructor
  case derived =>
    intro row hrow
    obtain ⟨record, rfl⟩ := hinv.encoded row hrow
    have hbelow := hinv.below record hrow
    obtain ⟨staging, trash, isolated, hpaths, hderives⟩ :=
      Linux.siblings_eq record.reservation.workspaceId hbelow
    refine ⟨record, staging, trash, isolated, Metadata.intoRecord_recordRow record, ?_, hderives⟩
    rw [activeWorkspaceProtectedPaths_eq hbelow, hpaths]
  case disjoint =>
    intro row hrow row' hrow' hne record record' paths paths' hread hread' hpaths hpaths'
    obtain ⟨a, rfl⟩ := hinv.encoded row hrow
    obtain ⟨b, rfl⟩ := hinv.encoded row' hrow'
    obtain rfl := Metadata.recordRow_unique hread
    obtain rfl := Metadata.recordRow_unique hread'
    rw [activeWorkspaceProtectedPaths_eq (hinv.below _ hrow)] at hpaths
    rw [activeWorkspaceProtectedPaths_eq (hinv.below _ hrow')] at hpaths'
    obtain rfl := Except.ok.inj hpaths
    obtain rfl := Except.ok.inj hpaths'
    -- Two rows with one identity are one row.
    have hids : record.reservation.workspaceId ≠ record'.reservation.workspaceId := by
      intro he
      refine hne (List.inj_on_of_nodup_map hinv.consistent.ids_nodup hrow hrow' ?_)
      exact congrArg WorkspaceId.toText he
    exact hinv.apart _ _ hrow hrow' hids

/-! ### Two creations

Two creations of one installation, for two targets.  Both are stopped behind their
reservations, so two rows are active and the theorem compares them. -/

/-- A run is at a later moment after a call. -/
theorem visits_after {c : PortCall} {next : c.Result → UseCase α} {P : World → Prop}
    (r : c.Result) (db' : Database) (effect : c.effect json installation w.db r db')
    (rest : ∃ w', Program.Visits (portEnvironment json installation) (next r)
      ⟨db', w.history ++ [⟨c, r⟩]⟩ w' ∧ P w') :
    ∃ w', Program.Visits (portEnvironment json installation) (.call c next) w w' ∧ P w' :=
  rest.imp fun _ run => ⟨.later ⟨rfl, effect⟩ run.1, run.2⟩

/-- A creation of `/t` that is stopped when its directories are prepared: its row stays.  Each
answer of the run is written out, up to the preparation that does not come. -/
theorem sampleCreate_stopped : ∃ w,
    Program.Visits (portEnvironment json sampleInstallation)
      (createImpl sampleCreate sampleMaterializers) ⟨.initialized sampleInstallation, []⟩ w ∧
    w.db = sampleDatabase := by
  refine visits_after (.ok (some sampleInstallation.identity)) _ rfl ?_
  refine visits_after (.ok ()) _ rfl ?_
  refine visits_after (.ok ()) _ rfl ?_
  refine visits_after (.ok ()) _ rfl ?_
  refine visits_after (.ok ()) _ rfl ?_
  refine visits_after (.ok (some ⟨sampleInstallation.identity, .ready⟩)) _ rfl ?_
  refine visits_after (.ok ()) _ rfl ?_
  refine visits_after (.ok []) _ initialized_workspaces ?_
  refine visits_after (.ok (sampleDirectory sampleReservation.sourcePath 2)) _ rfl ?_
  refine visits_after (.ok (sampleDirectory sampleInstallation.identity.dataRoot 3)) _ rfl ?_
  refine visits_after sampleReservation.workspaceId _ rfl ?_
  refine visits_after (.ok samplePreliminary) _ rfl ?_
  refine visits_after (.ok sampleRecord) _ initialized_reserve ?_
  refine visits_after (.ok samplePrepared) _ rfl ?_
  exact ⟨_, .here, rfl⟩

/-- The letter `b` is a workspace name, the second of the sample. -/
theorem validateWorkspaceName_second : validateWorkspaceName "b" = .ok () := by decide

/-- The reservation of a second copy of `/s`, at `/u`. -/
def secondReservation : WorkspaceReservation :=
  { sampleReservation with
    workspaceId := ⟨sampleUuid 5⟩
    name := ⟨"b", validateWorkspaceName_second⟩
    targetPath := samplePath 20 }

/-- The creation of the second copy: another name and another target, from the same source. -/
def secondCreate : CreateRequest :=
  ⟨secondReservation.sourcePath, secondReservation.targetPath, secondReservation.name, true,
    secondReservation.createdAt⟩


/-- The database that holds both reservations, so that two distinct rows are compared. -/
def secondDatabase : Database :=
  { sampleDatabase with
    workspaces := [Metadata.reservationRow sampleReservation,
      Metadata.reservationRow secondReservation] }

/-- The first reservation is listed, as the second creation finds it. -/
theorem sampleDatabase_workspaces :
    StoreStep Metadata.workspaces sampleDatabase (.ok [sampleRecord]) sampleDatabase := by
  have hlist : Metadata.workspaces ⟨sampleDatabase, []⟩ =
      .ok [sampleRecord] ⟨sampleDatabase, []⟩ := by
    change (Session.ofExcept ((List.mergeSort [Metadata.reservationRow sampleReservation]
      Metadata.WorkspaceRow.listedBefore).mapM
      Metadata.WorkspaceRow.intoRecord) : Metadata.Store _) _ = _
    rw [List.mergeSort_singleton]
    rfl
  exact .returned hlist

/-- The second reservation is accepted beside the first, since name, target and identifier differ.
-/
theorem sampleDatabase_reserve :
    StoreStep (Metadata.reserveWorkspace sampleInstallation secondReservation)
      sampleDatabase (.ok { sampleRecord with reservation := secondReservation }) secondDatabase :=
  @StoreStep.returned _ _ _ [] _ ⟨secondDatabase, []⟩ rfl

/-- The second staging directory has an absolute path, in the root directory. -/
theorem validatePath_secondStaging :
    validatePath (slash :: stagingName secondReservation.workspaceId) = .ok () := by
  decide +kernel

/-- The second trash directory has an absolute path, in the root directory. -/
theorem validatePath_secondTrash :
    validatePath (slash :: trashName secondReservation.workspaceId) = .ok () := by
  decide +kernel

/-- The probe before the second reservation: target, staging and trash are all missing. -/
def secondPreliminary : MaterializationPathReport :=
  sampleProbe (sampleMissing secondReservation.targetPath)
    (sampleMissing ⟨_, validatePath_secondStaging⟩) (sampleMissing ⟨_, validatePath_secondTrash⟩)

/-- A creation of `/u` beside the first, stopped right behind its reservation.  Each answer of the
run is written out; its list of active rows has the first one, with which its paths are compared.
-/
theorem secondCreate_stopped : ∃ w,
    Program.Visits (portEnvironment json sampleInstallation)
      (createImpl secondCreate sampleMaterializers) ⟨sampleDatabase, []⟩ w ∧
    w.db = secondDatabase ∧
    ∀ id, ⟨.newWorkspaceId, id⟩ ∈ w.history → id = secondReservation.workspaceId := by
  refine visits_after (.ok (some sampleInstallation.identity)) _ rfl ?_
  refine visits_after (.ok ()) _ rfl ?_
  refine visits_after (.ok ()) _ rfl ?_
  refine visits_after (.ok ()) _ rfl ?_
  refine visits_after (.ok ()) _ rfl ?_
  refine visits_after (.ok (some ⟨sampleInstallation.identity, .ready⟩)) _ rfl ?_
  refine visits_after (.ok ()) _ rfl ?_
  refine visits_after (.ok [sampleRecord]) _ sampleDatabase_workspaces ?_
  refine visits_after (.ok (sampleDirectory sampleReservation.sourcePath 2)) _ rfl ?_
  refine visits_after (.ok (sampleDirectory sampleInstallation.identity.dataRoot 3)) _ rfl ?_
  refine visits_after secondReservation.workspaceId _ rfl ?_
  refine visits_after (.ok secondPreliminary) _ rfl ?_
  refine visits_after (.ok (sampleDirectory samplePrepared.targetRoot 4)) _ rfl ?_
  refine visits_after (.ok (sampleDirectory samplePrepared.stagingRoot 5)) _ rfl ?_
  refine visits_after (.ok (sampleDirectory samplePrepared.trashRoot 6)) _ rfl ?_
  refine visits_after (.ok (sampleMissing samplePrepared.targetRoot)) _ rfl ?_
  refine visits_after (.ok { sampleRecord with reservation := secondReservation }) _
    sampleDatabase_reserve ?_
  refine ⟨_, .here, rfl, fun id hmem => ?_⟩
  simpa using hmem

/-- The identifier of the second creation is not in the path of the first. -/
theorem secondReservation_fresh : Fresh sampleDatabase secondReservation.workspaceId := by
  intro row hrow hinfix
  obtain rfl := List.mem_singleton.mp hrow
  have hlength := hinfix.length_le
  exact absurd hlength (by decide +kernel)

/-- The rows of two creations stand apart, in a database that both of them reach: two distinct rows
are compared here.  The two stopped runs follow each other, which makes their last database one
that is reached, and the theorem is applied there. -/
theorem active_paths_apart_pair : ∃ w : World,
    w.db.workspaces = [Metadata.reservationRow sampleReservation,
      Metadata.reservationRow secondReservation] ∧
    Metadata.reservationRow sampleReservation ≠ Metadata.reservationRow secondReservation ∧
    ActivePathsApart w.db := by
  obtain ⟨w₁, run₁, hdb₁⟩ := sampleCreate_stopped
  obtain ⟨w₂, run₂, hdb₂, hgenerated⟩ := secondCreate_stopped
  have hfirst : Reached sampleLibrary sampleInstallation sampleDatabase := by
    rw [← hdb₁]
    exact .created .initialized run₁ fun _ _ _ hmem => absurd hmem List.not_mem_nil
  have hsecond : Reached sampleLibrary sampleInstallation w₂.db := by
    refine .created hfirst run₂ fun id hid => ?_
    rw [hgenerated id hid]
    exact secondReservation_fresh
  refine ⟨w₂, by rw [hdb₂]; rfl, ?_, ?_⟩
  · intro he
    exact absurd (congrArg Metadata.WorkspaceRow.targetPath he) (by decide)
  · exact active_paths_apart sampleLibrary sampleInstallation w₂.db hsecond

end Application
end ThinWorkspace
