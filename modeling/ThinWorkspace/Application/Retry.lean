/-
# A creation that is made again

Source: the branch of `create_impl` in `crates/thinws-application/src/create.rs` for a name
that is taken.

A creation that returned leaves a workspace whose stored receipt says what was reported
(`createImpl_grants`), and creations and removals of others leave it so
(`ThinWorkspace.Application.Kept`).  A later creation with its name finds the record before
it could write: it only observes (`createImpl_observes`), and with other inputs it fails.
With the same inputs, where every read succeeds (`steady`), it has one outcome, the one of
the first creation with `created = false` (`createImpl_yields`).
-/

import ThinWorkspace.Application.Kept

namespace ThinWorkspace
namespace Application

open ThinWorkspace.Core Lib Ports
open Metadata (Database recordRow reservationRow)
open Program (Only Returns Safe Visits)

variable {json : JsonLibrary} {installation : InstallationRecord} {db db' : Database}
  {w w' : World} {record : WorkspaceRecord} {summary : FinalMaterializationSummary}
  {request : CreateRequest} {materializers : Materializers} {α β : Type}

/-- What a creation compares with a record that has its name. -/
def CreateRequest.inputs (request : CreateRequest) : AbsolutePath × AbsolutePath × Bool :=
  (request.source, request.target, request.allowFullCopy)

/-- The inputs a record was created with, which a later creation with its name has to repeat. -/
def inputsOf (reservation : WorkspaceReservation) : AbsolutePath × AbsolutePath × Bool :=
  (reservation.sourcePath, reservation.targetPath, reservation.allowFullCopy)

/-- Two requests have the same inputs exactly if source, target and permission to copy agree. -/
theorem inputs_eq {reservation : WorkspaceReservation} :
    inputsOf reservation = request.inputs ↔ reservation.sourcePath = request.source ∧
      reservation.targetPath = request.target ∧
      reservation.allowFullCopy = request.allowFullCopy := by
  simp only [inputsOf, CreateRequest.inputs, Prod.mk.injEq]

/-- The reservation was made for a request with this name and these inputs. -/
structure Requested (request : CreateRequest) (reservation : WorkspaceReservation) : Prop where
  name : reservation.name = request.name
  inputs : inputsOf reservation = request.inputs

/-! ### A name that is taken

A creation that finds its name among the rows only observes, and refuses inputs that differ
from the record's. -/

/-- The record that a creation finds has the name it was asked for. -/
theorem found_of_listed (hdb : db.Consistent) (hencoded : db.Encoded) (hactive : Active db record)
    {records : List WorkspaceRecord} (h : StoreStep Metadata.workspaces db (.ok records) db') :
    findByName record.reservation.name records = some record :=
  (findByName_iff hdb fun _ => listed_iff hencoded h).mpr ⟨hactive, rfl⟩

/-- A part that only observes leaves the database, and makes observing calls only. -/
theorem observing_guarded {x : UseCase α} (hx : Only (fun c => c.observes = true) x) :
    Safe (portEnvironment json installation) (fun c _ => c.observes = true)
      (fun _ w' => w'.db = w.db) x w :=
  hx.safe (R := fun w w' : World => w'.db = w.db) (fun _ => rfl) (fun _ _ _ h₁ h₂ => h₂.trans h₁)
    (fun _ _ h => h) fun _ _ _ _ hc step => step_reading (not_writesStore_of_observes _ hc) step

/-- The list that a creation reads is one of the rows of the database. -/
theorem listing_safe {guard : PortCall → World → Prop} (hguard : ∀ w, guard .workspaces w)
    (hw : w.db = db) :
    Safe (portEnvironment json installation) guard
      (fun outcome w' => w'.db = db ∧ ∀ records, outcome = .ok records →
        StoreStep Metadata.workspaces db (.ok records) w'.db)
      (port .metadata (call .workspaces)) w := by
  refine ⟨hguard w, fun listed w' step => ?_⟩
  have hdb : w'.db = db := (step_reading rfl step).trans hw
  rcases listed with e | records
  · exact ⟨hdb, fun _ h => by cases h⟩
  · refine ⟨hdb, fun _ h => ?_⟩
    obtain rfl := Except.ok.inj h
    exact hw ▸ step.2

/-- **A taken name is only looked at**, and other inputs are refused.  The run only observes up to
the lookup of the name, which finds the record, and from there on it is `createExisting`, which
observes as well. -/
theorem createImpl_observes (hdb : db.Consistent) (hencoded : db.Encoded)
    (hactive : Active db record) (hname : record.reservation.name = request.name) :
    Safe (portEnvironment json installation) (fun c _ => c.observes = true)
      (fun outcome _ => inputsOf record.reservation ≠ request.inputs → ∃ e, outcome = .error e)
      (createImpl request materializers) ⟨db, []⟩ := by
  refine Safe.bind (x := unlessFail _ _) (observing_guarded only_unlessFail)
    (fun _ w₁ h₁ => ?_) fun e _ _ _ => ⟨e, rfl⟩
  refine Safe.bind (x := readIdentity) (observing_guarded (only_readIdentity.mono
    observes_of_opensStore)) (fun identity w₂ h₂ => ?_) fun e _ _ _ => ⟨e, rfl⟩
  refine Safe.bind (x := unlessFail _ _) (observing_guarded only_unlessFail)
    (fun _ w₃ h₃ => ?_) fun e _ _ _ => ⟨e, rfl⟩
  refine Safe.bind (x := openMetadata _ _) (observing_guarded (only_openMetadata.mono
    observes_of_opensStore)) (fun _ w₄ h₄ => ?_) fun e _ _ _ => ⟨e, rfl⟩
  have hdb₄ : w₄.db = db := h₄.trans (h₃.trans (h₂.trans h₁))
  refine Safe.bind (x := port _ _) (listing_safe (fun _ => rfl) hdb₄)
    (fun records w₅ h₅ => ?_) fun e _ _ _ => ⟨e, rfl⟩
  have hfound : findByName request.name records = some record := by
    rw [← hname]
    exact found_of_listed hdb hencoded hactive (h₅.2 records rfl)
  rw [hfound]
  by_cases hinputs : inputsOf record.reservation = request.inputs
  · exact (observing_guarded only_createExisting).mono fun _ _ _ h => absurd hinputs h
  · exact unlessFail_bind (fun _ => ⟨_, rfl⟩) fun hsame => absurd (inputs_eq.mpr hsame) hinputs

/-! ### Reads that succeed

For the positive half, that the repeated request is answered, the reads have to succeed.
`steady` is the world in which they do, and `Yields` follows the code in it: each part
returns one value in every run, and there is such a run. -/

/-- A read that succeeds in the installation of the identity: the configuration, the lock, the
layout and the marker are in order, the store can be read, and the workspace is owned. -/
def PortCall.Succeeds (identity : InstallationIdentity) : (c : PortCall) → c.Result → Prop
  | .readConfig => fun r => r = .ok (some identity)
  | .validateLayout _ => fun r => r = .ok ()
  | .acquireDataRoot _ => fun r => r = .ok ()
  | .lockRevalidate => fun r => r = .ok ()
  | .readRootMarker _ => fun r => r = .ok (some ⟨identity, .ready⟩)
  | .openExisting _ => fun r => r = .ok ()
  | .workspaces => fun r => ∃ records, r = .ok records
  | .validateReadyWorkspace reservation => fun r => r = .ok reservation.targetPath
  | .finalMaterialization _ => fun r => ∃ found, r = .ok found
  | _ => fun _ => True

/-- Every read made so far has succeeded, with the installation's own answers. -/
def World.Succeeds (identity : InstallationIdentity) (w : World) : Prop :=
  ∀ e ∈ w.history, e.call.Succeeds identity e.result

/-- The world of the use cases while the reads succeed. -/
def steady (json : JsonLibrary) (installation : InstallationRecord)
    (identity : InstallationIdentity) : Environment PortCall PortCall.Result World where
  step w c r w' := (portEnvironment json installation).step w c r w' ∧ c.Succeeds identity r

variable {identity : InstallationIdentity} {x : UseCase α}
  {outcome : Except UseCaseError α}

/-- A run only adds to the history of its events. -/
theorem safe_grows :
    Safe (portEnvironment json installation) (fun _ _ => True)
      (fun _ w' => ∀ e ∈ w.history, e ∈ w'.history) x w := by
  refine Program.only_true.safe (R := fun w w' : World => ∀ e ∈ w.history, e ∈ w'.history)
    (fun _ _ h => h) (fun _ _ _ h h' e he => h' e (h e he)) (fun _ _ _ => trivial) ?_
  intro w c r w' _ step e he
  rw [step_history step]
  exact List.mem_append_left _ he

/-- A run whose reads succeeded is a run of the steady world. -/
theorem returns_steady (run : Returns (portEnvironment json installation) x w outcome w')
    (h : w'.Succeeds identity) : Returns (steady json installation identity) x w outcome w' := by
  induction run with
  | ret => exact .ret
  | fail => exact .fail
  | @call c _ _ w₁ _ r _ step rest ih =>
    have hmem : (⟨c, r⟩ : Event) ∈ w₁.history := by
      rw [step_history step]
      exact List.mem_append_right _ (List.mem_singleton_self _)
    exact .call ⟨step, h _ (safe_grows.of_returns rest _ hmem)⟩ (ih h)

/-- The reads of a steady run have succeeded, so what they returned is in the history. -/
theorem steady_succeeds (run : Returns (steady json installation identity) x w outcome w')
    (h : w.Succeeds identity) : w'.Succeeds identity := by
  induction run with
  | ret => exact h
  | fail => exact h
  | @call c _ _ _ _ r _ step _ ih =>
    refine ih fun e he => ?_
    rw [step_history step.1] at he
    rcases List.mem_append.mp he with he | he
    · exact h e he
    · rw [List.mem_singleton.mp he]
      exact step.2

/-- The part returns the value in every steady run, and there is one. -/
def Yields (json : JsonLibrary) (installation : InstallationRecord)
    (identity : InstallationIdentity) (db : Database) (a : α) (x : UseCase α) : Prop :=
  ∀ history, Safe (steady json installation identity)
    (fun c w => ∃ r w', (steady json installation identity).step w c r w')
    (fun outcome w' => outcome = .ok a ∧ w'.db = db) x ⟨db, history⟩

section Yields

variable {a : α} {b : β}

/-- A part that yields one value, and a rest that yields another behind it. -/
theorem Yields.bind {f : α → UseCase β} (hx : Yields json installation identity db a x)
    (hf : Yields json installation identity db b (f a)) :
    Yields json installation identity db b (x >>= f) := by
  intro history
  refine Safe.bind (hx history) (fun a' w' h => ?_) fun e w' h => ?_
  · obtain ⟨db', history'⟩ := w'
    obtain ⟨ha, hdb⟩ := h
    obtain rfl := Except.ok.inj ha
    obtain rfl : db' = db := hdb
    exact hf history'
  · cases h.1

/-- A value at hand is yielded, and the database stays as it is. -/
theorem yields_pure : Yields json installation identity db a (pure a) := fun _ => ⟨rfl, rfl⟩

/-- A condition that holds is passed, without a call. -/
theorem yields_unlessFail {p : Prop} [Decidable p] {error : UseCaseError} (h : p) :
    Yields json installation identity db () (unlessFail p error) := by
  rw [unlessFail, if_pos h]
  exact yields_pure

/-- A value that is there is yielded, without a call. -/
theorem yields_orMissing {error : UseCaseError} :
    Yields json installation identity db a (orMissing error (some a)) := yields_pure

/-- A part that yields a success is not failed. -/
theorem Yields.orFail {ε : Type} {f : ε → UseCaseError} {x : UseCase (Except ε α)}
    (hx : Yields json installation identity db (.ok a) x) :
    Yields json installation identity db a (x.orFail f) :=
  Yields.bind hx yields_pure

/-- A call with one answer that counts as a success. -/
theorem yields_call {c : PortCall} {r : c.Result} (hsucceeds : c.Succeeds identity r)
    (heffect : c.effect json installation db r db)
    (hknown : ∀ r' db', c.Succeeds identity r' → c.effect json installation db r' db' →
      r' = r ∧ db' = db) :
    Yields json installation identity db r (call c) := by
  intro history
  refine ⟨⟨r, ⟨db, history ++ [⟨c, r⟩]⟩, ⟨rfl, heffect⟩, hsucceeds⟩, fun r' w' step => ?_⟩
  obtain ⟨hr, hdb⟩ := hknown r' w'.db step.2 step.1.2
  exact ⟨congrArg Except.ok hr, hdb⟩

/-! ### The parts of a retry

The parts of a retry before the name is looked up. -/

/-- In a steady world the identity is read, since the config is there. -/
theorem yields_readIdentity : Yields json installation identity db identity readIdentity :=
  Yields.bind (Yields.orFail (yields_call rfl rfl fun _ _ h he => ⟨h, he⟩)) yields_orMissing

/-- In a steady world the ready marker is found. -/
theorem yields_requireReadyMarker :
    Yields json installation identity db () (requireReadyMarker identity) :=
  Yields.bind (Yields.orFail (yields_call rfl rfl fun _ _ h he => ⟨h, he⟩))
    (yields_unlessFail rfl)

/-- In a steady world the lock is acquired, since its call succeeds there. -/
theorem yields_acquireLock : Yields json installation identity db () (acquireLock identity) :=
  Yields.bind (yields_call rfl rfl fun _ _ h he => ⟨h, he⟩) yields_pure

/-- In a steady world the metadata is opened, for the identity that was read. -/
theorem yields_openMetadata {now : UnixMillis} :
    Yields json installation identity db () (openMetadata identity now) := by
  refine Yields.bind (Yields.orFail (yields_call rfl rfl fun _ _ h he => ⟨h, he⟩)) ?_
  refine Yields.bind yields_acquireLock ?_
  refine Yields.bind (Yields.orFail (yields_call rfl rfl fun _ _ h he => ⟨h, he⟩)) ?_
  refine Yields.bind (Yields.orFail (yields_call rfl rfl fun _ _ h he => ⟨h, he⟩)) ?_
  refine Yields.bind yields_requireReadyMarker ?_
  exact Yields.orFail (yields_call rfl rfl fun _ _ h he => ⟨h, he⟩)

end Yields

/-! ### The reads of the store

The list of the rows and the summary of a receipt are the same whenever they are read from
one database. -/

/-- The rows of an encoded database can be listed. -/
theorem exists_listing (hencoded : db.Encoded) : ∃ records,
    StoreStep Metadata.workspaces db (.ok records) db := by
  have hsorted : ∀ row ∈ db.workspaces.mergeSort Metadata.WorkspaceRow.listedBefore,
      ∃ record, row = recordRow record :=
    fun row hrow => hencoded row (List.mem_mergeSort.mp hrow)
  obtain ⟨records, hrecords⟩ := Metadata.exists_records hsorted
  have hrun : Metadata.workspaces ⟨db, []⟩ = .ok records ⟨db, []⟩ := by
    rw [Metadata.workspaces, Metadata.run_bind Metadata.run_query, hrecords,
      Metadata.mapM_intoRecord]
    rfl
  exact ⟨records, .returned hrun⟩

/-- A list that is read again is the same. -/
theorem listing_unique {records records' : List WorkspaceRecord}
    (h : StoreStep Metadata.workspaces db (.ok records) db')
    (h' : StoreStep Metadata.workspaces db (.ok records') w.db) : records' = records :=
  Except.ok.inj (h'.listed.symm.trans h.listed)

/-- A receipt says one summary of a volume, so a retry has one answer. -/
theorem tells_unique {stored : Metadata.ReceiptRow} {volume : String}
    {summary' : FinalMaterializationSummary} (h : stored.Tells json volume summary)
    (h' : stored.Tells json volume summary') : summary' = summary := by
  obtain ⟨_, hvolume, hdecode⟩ := h
  obtain ⟨_, hvolume', hdecode'⟩ := h'
  obtain rfl := Option.some.inj (hvolume'.symm.trans hvolume)
  exact Except.ok.inj (hdecode'.symm.trans hdecode)

/-- What is read of an active record with a receipt is what the receipt says.  Receipts are unique
by their identifier, so the one that is read is the stored one. -/
theorem finalMaterialization_tells (hdb : db.Consistent) (hencoded : db.Encoded)
    (hactive : Active db record) {stored : Metadata.ReceiptRow} (hstored : stored ∈ db.receipts)
    (hid : stored.workspaceId = record.reservation.workspaceId.toText)
    {found : Option FinalMaterializationSummary}
    (h : StoreStep (Metadata.finalMaterialization json record.reservation.workspaceId) db
      (.ok found) db') :
    ∃ summary, found = some summary ∧
      stored.Tells json (recordRow record).targetVolumeId summary := by
  obtain ⟨faults, c, run, -⟩ := h.ran
  obtain ⟨read, c₁, hread, run⟩ := Session.bind_ok run
  have hrecord : read = some record :=
    (workspace_iff hdb hencoded (.returned hread)).mpr ⟨hactive, rfl⟩
  obtain rfl := hrecord
  have hdata : c₁.data = db := (Metadata.reads_readWorkspace.ok hread).symm
  obtain ⟨c₂, -, run⟩ := Session.query_bind_ok run
  have hselect : db.selectReceipt record.reservation.workspaceId.toText = some stored :=
    hid ▸ Metadata.selectReceipt_of_mem hdb.receipt_ids_nodup hstored
  rw [hdata, hselect] at run
  obtain ⟨hdecode, -⟩ := Session.ofExcept_ok run
  cases hsummary : Metadata.decodeFinalSummary json stored.receiptSchemaVersion stored.receiptJson
      record.reservation.targetVolumeId with
  | error e =>
    rw [hsummary] at hdecode
    cases hdecode
  | ok summary =>
    rw [hsummary] at hdecode
    exact ⟨summary, (Except.ok.inj hdecode).symm, _,
      VolumeId.fromText_toText record.reservation.targetVolumeId, hsummary⟩

/-! ### The retry

Where the record is retained, the retry returns it with its summary and says that nothing
was created. -/

/-- In a steady world the list of the rows is yielded as it was read. -/
theorem yields_workspaces {records : List WorkspaceRecord}
    (h : StoreStep Metadata.workspaces db (.ok records) db) :
    Yields json installation identity db records (port .metadata (call .workspaces)) := by
  refine Yields.orFail (yields_call ⟨records, rfl⟩ h fun r db' hr heffect => ?_)
  obtain ⟨records', rfl⟩ := hr
  have hdb : db' = db := heffect.reads reads_workspaces
  exact ⟨congrArg Except.ok (listing_unique (w := ⟨db', []⟩) h heffect), hdb⟩

/-- The stored summary is the one answer of the final read. -/
theorem Retained.yields_finalMaterialization (h : Retained json record summary db) :
    Yields json installation identity db (some summary)
      (port .metadata (call (.finalMaterialization record.reservation.workspaceId))) := by
  obtain ⟨stored, hstored, hid, htells⟩ := h.told
  have hrun := (Metadata.finalMaterialization_run h.consistent h.active hstored hid htells).2
  refine Yields.orFail (yields_call ⟨_, rfl⟩ (.returned hrun) fun r db' hr heffect => ?_)
  obtain ⟨found, rfl⟩ := hr
  have hdb : db' = db := heffect.reads reads_finalMaterialization
  obtain ⟨summary', rfl, htells'⟩ :=
    finalMaterialization_tells h.consistent h.encoded h.active hstored hid heffect
  rw [tells_unique htells htells']
  exact ⟨rfl, hdb⟩

/-- A retry with the same inputs yields the record and its summary, and says that nothing was
created. -/
theorem Retained.yields_createExisting (h : Retained json record summary db)
    (hinputs : inputsOf record.reservation = request.inputs) :
    Yields json installation identity db ⟨record, summary, false⟩
      (createExisting request record) := by
  refine Yields.bind (yields_unlessFail (inputs_eq.mp hinputs)) ?_
  refine Yields.bind (yields_unlessFail h.ready) ?_
  refine Yields.bind (Yields.orFail (yields_call rfl rfl fun _ _ hr he => ⟨hr, he⟩)) ?_
  refine Yields.bind (Yields.orFail (yields_call rfl rfl fun _ _ hr he => ⟨hr, he⟩)) ?_
  refine Yields.bind (yields_unlessFail rfl) ?_
  exact Yields.bind h.yields_finalMaterialization (Yields.bind yields_orMissing yields_pure)

/-- **A retry has one outcome.**  Where every read succeeds, a creation with the name and the
inputs of a Ready workspace returns its record and its stored summary. -/
theorem createImpl_yields (h : Retained json record summary db)
    (hrequested : Requested request record.reservation)
    (havailable : materializers.available = true)
    (hapart : requestedPathsOverlap request.source request.target identity.dataRoot = false) :
    Yields json installation identity db ⟨record, summary, false⟩
      (createImpl request materializers) := by
  obtain ⟨records, hlisted⟩ := exists_listing h.encoded
  have hfound : findByName request.name records = some record := by
    rw [← hrequested.name]
    exact found_of_listed h.consistent h.encoded h.active hlisted
  refine Yields.bind (yields_unlessFail havailable) ?_
  refine Yields.bind yields_readIdentity ?_
  refine Yields.bind (yields_unlessFail hapart) ?_
  refine Yields.bind yields_openMetadata ?_
  refine Yields.bind (yields_workspaces hlisted) ?_
  simp only [hfound]
  exact h.yields_createExisting hrequested.inputs

/-! ### What a creation leaves

What the first creation left: a record for the request, Ready, with the receipt that was
reported.  The writes are followed in the same way as for the outcome, with more said about
the receipt. -/

/-- The plans and the receipts that were committed are values their constructors made, and the
library parses back what it prints of them. -/
def CommitsFaithful (json : JsonLibrary) (w : World) : Prop :=
  ∀ id plan receipt now r, ⟨.completeMaterialization id plan receipt now, r⟩ ∈ w.history →
    Metadata.Call.Faithful json (.completeMaterialization id plan receipt now)

/-- What a creation leaves when it returns: a workspace for the request, whose receipt says
what was reported. -/
def Grants (json : JsonLibrary) (request : CreateRequest)
    (outcome : Except UseCaseError CreateOutcome) (w : World) : Prop :=
  CommitsFaithful json w → ∀ made, outcome = .ok made →
    Retained json made.record made.materialization w.db ∧ Requested request made.record.reservation

/-- A creation that fails grants nothing: what is granted is a matter of a creation that returned.
-/
theorem grants_error {e : UseCaseError} : Grants json request (.error e) w :=
  fun _ _ h => by cases h

/-- The row of a reservation that was just made. -/
structure Reserved (reservation : WorkspaceReservation) (db : Database) : Prop where
  consistent : db.Consistent
  encoded : db.Encoded
  row : db.selectWorkspace reservation.workspaceId.toText = some (reservationRow reservation)

/-- A part that does not write to the store leaves the database. -/
theorem keeping_part {x : UseCase α} (hx : Only (fun c => c.writesStore = false) x) :
    Safe (portEnvironment json installation) (fun _ _ => True) (fun _ w' => w'.db = w.db) x w :=
  (reading_part hx).mono fun _ _ h => h.2

/-- A part that only observes leaves the database, whatever its calls answer. -/
theorem keeping_observed {x : UseCase α} (hx : Only (fun c => c.observes = true) x) :
    Safe (portEnvironment json installation) (fun _ _ => True) (fun _ w' => w'.db = w.db) x w :=
  keeping_part (hx.mono not_writesStore_of_observes)

/-- **What a completion leaves** of a reservation: a Ready record with a receipt that says what was
reported.  The completion has written the row in Ready and appended the receipt, and a faithful
receipt reads back. -/
theorem retained_of_completion {reservation : WorkspaceReservation} {plan : MaterializationPlan}
    {receipt : MaterializationReceipt} {now : UnixMillis} (h : Reserved reservation db)
    (hfaithful : Metadata.Call.Faithful json
      (.completeMaterialization reservation.workspaceId plan receipt now))
    (hstep : StoreStep (Metadata.completeMaterialization json reservation.workspaceId plan receipt
      now) db (.ok record) db') :
    Retained json record (summaryOf receipt) db' ∧ record.reservation = reservation := by
  obtain ⟨faults, c, run, rfl⟩ := hstep.ran
  have hchange := (Metadata.completeMaterialization_change json reservation.workspaceId plan
    receipt now).ok run
  have hdb' := hchange.consistent h.consistent
  have hshown := Metadata.completeMaterialization_shows h.consistent hfaithful run
  obtain ⟨old, _, hold, _, _, _, hrow, hinto, _⟩ :=
    Metadata.completeMaterialization_ok h.consistent.ids_nodup run
  obtain rfl : old = reservationRow reservation := Option.some.inj (hold.symm.trans h.row)
  obtain ⟨hmem, hid⟩ := Metadata.selectWorkspace_mem hrow
  -- The row that was stamped is the row of the record that was returned.
  have hcheck : ((recordRow (Metadata.reservedRecord reservation)).stamped .ready none
      now).check = true := hdb'.checked _ hmem
  obtain ⟨next, hreservation, hstate, -, -, hnext⟩ := Metadata.recordRow_stamped hcheck
  have hstamped : (reservationRow reservation).stamped .ready none now = recordRow next := hnext
  rw [hstamped] at hmem hid hinto
  obtain rfl := Metadata.recordRow_unique hinto
  have htext : record.reservation.workspaceId.toText = reservation.workspaceId.toText := hid
  obtain ⟨hstored, htells⟩ := hshown.tells _ hmem hid
  refine ⟨⟨hdb', hchange.encoded h.encoded, hmem, hstate, ?_⟩, hreservation⟩
  exact ⟨_, hstored, htext.symm, htells⟩

/-- The end of a creation grants what it reports: the receipt was stored before it returned.  The
parts before the completion keep the reservation in its place; the completion then turns it into
what is retained. -/
theorem finishReserved_grants {reservation : WorkspaceReservation} {prepared : PreparedWorkspace}
    {plan : MaterializationPlan} {receipt : MaterializationReceipt}
    (hrequested : Requested request reservation) (h : Reserved reservation w.db) :
    Safe (portEnvironment json installation) (fun _ _ => True) (Grants json request)
      (finishReserved request reservation prepared plan receipt) w := by
  refine Safe.bind (x := port _ _) (keeping_part (Only.orFail (only_call rfl)))
    (fun _ w₁ h₁ => ?_) fun _ _ _ => grants_error
  refine Safe.bind (x := port _ _) (keeping_part (Only.orFail (only_call rfl)))
    (fun _ w₂ h₂ => ?_) fun _ _ _ => grants_error
  refine Safe.bind (x := port _ _) (keeping_part (Only.orFail (only_call rfl)))
    (fun _ w₃ h₃ => ?_) fun _ _ _ => grants_error
  refine Safe.bind (x := port _ _) (keeping_part (Only.orFail (only_call rfl)))
    (fun _ w₄ h₄ => ?_) fun _ _ _ => grants_error
  have hdb₄ : w₄.db = w.db := h₄.trans (h₃.trans (h₂.trans h₁))
  refine ⟨trivial, fun completed w₅ h₅ => ?_⟩
  rcases completed with e | committed
  · exact grants_error
  · intro hfaithful made hmade
    obtain rfl := Except.ok.inj hmade
    have hevent : (⟨.completeMaterialization reservation.workspaceId plan receipt request.now,
        .ok committed⟩ : Event) ∈ w₅.history := by
      rw [step_history h₅]
      exact List.mem_append_right _ (List.mem_singleton_self _)
    obtain ⟨hretained, hreservation⟩ :=
      retained_of_completion (hdb₄ ▸ h) (hfaithful _ _ _ _ _ hevent) h₅.2
    exact ⟨hretained, hreservation ▸ hrequested⟩

/-- A creation behind its reservation grants what it reports. -/
theorem createReserved_grants {dataRoot : AbsolutePath} {reservation : WorkspaceReservation}
    (hrequested : Requested request reservation) (h : Reserved reservation w.db) :
    Safe (portEnvironment json installation) (fun _ _ => True) (Grants json request)
      (createReserved request materializers dataRoot reservation) w := by
  refine Safe.bind (x := port _ _) (keeping_part (Only.orFail (only_call rfl)))
    (fun prepared w₁ h₁ => ?_) fun _ _ _ => grants_error
  refine Safe.bind (x := unlessFail _ _) (keeping_part only_unlessFail)
    (fun _ w₂ h₂ => ?_) fun _ _ _ => grants_error
  refine Safe.bind (x := planPrepared _ _ _ _ _ _) (keeping_observed only_planPrepared)
    (fun plan w₃ h₃ => ?_) fun _ _ _ => grants_error
  refine Safe.bind (x := materializePrepared _ _ _ _ _) (keeping_part reading_materializePrepared)
    (fun made w₄ h₄ => ?_) fun _ _ _ => grants_error
  have hdb₄ : w₄.db = w.db := h₄.trans (h₃.trans (h₂.trans h₁))
  exact finishReserved_grants hrequested (hdb₄ ▸ h)

/-- A creation that makes its reservation grants what it reports.  A reservation that returned is a
row in `creating`, and every part up to its completion keeps it so. -/
theorem reserveAndCreate_grants {reservation : WorkspaceReservation} (hdb : w.db.Consistent)
    (hencoded : w.db.Encoded) (hrequested : Requested request reservation) :
    Safe (portEnvironment json installation) (fun _ _ => True) (Grants json request)
      (reserveAndCreate request materializers identity reservation) w := by
  refine ⟨trivial, fun reserved w₁ h₁ => ?_⟩
  rcases reserved with e | made
  · exact grants_error
  · have hchange := PortCall.effect_change h₁.2
    obtain ⟨faults, c, run, hdata⟩ := StoreStep.ran h₁.2
    have hreserved : Reserved reservation w₁.db := by
      refine ⟨hchange.consistent hdb, hchange.encoded hencoded, ?_⟩
      rw [hdata]
      exact Metadata.selectWorkspace_insertWorkspace (Metadata.reserveWorkspace_ok run)
    have hmade : Safe (portEnvironment json installation) (fun _ _ => True) (Grants json request)
        ((createReserved request materializers identity.dataRoot reservation).mapError
          fun error => error.withWorkspaceId reservation.workspaceId) w₁ := by
      refine Safe.mapError ((createReserved_grants hrequested hreserved).mono
        fun outcome w₂ h₂ => ?_)
      cases outcome with
      | ok outcome => exact h₂
      | error e => exact grants_error
    show Safe _ _ _ (do
      let result ← ((createReserved request materializers identity.dataRoot
        reservation).mapError fun error => error.withWorkspaceId reservation.workspaceId).attempt
      recordOutcome request reservation.workspaceId result) w₁
    refine Safe.bind hmade.attempt (fun result w₂ h₂ => ?_) fun _ _ _ => grants_error
    obtain ⟨_, ⟨⟩, h₂⟩ := h₂
    cases result with
    | ok outcome => exact h₂
    | error e =>
      refine ⟨trivial, fun recorded w₃ _ => ?_⟩
      cases recorded with
      | ok _ => exact grants_error
      | error _ => exact grants_error

/-- The reservation of a creation has its name and its inputs.  The reservation is computed from
the request at the very end, whatever was observed before. -/
theorem observe_requested {active : List WorkspaceRecord} :
    Safe (portEnvironment json installation) (fun _ _ => True)
      (fun outcome w' => w'.db = w.db ∧
        ∀ reservation, outcome = .ok reservation → Requested request reservation)
      (observe request identity active) w := by
  have hdelivers : Program.Delivers (portEnvironment json installation) (fun _ _ => True)
      (fun reservation _ => Requested request reservation) (observe request identity active) w := by
    have hpart {α : Type} {x : UseCase α} {w : World} :
        Program.Delivers (portEnvironment json installation) (fun _ _ => True)
          (fun _ _ => True) x w := Safe.mono Program.safe_true fun _ _ _ _ _ => trivial
    refine Program.Delivers.bind hpart fun _ _ _ => Program.Delivers.bind hpart fun _ _ _ => ?_
    refine Program.Delivers.bind hpart fun _ _ _ => Program.Delivers.bind hpart fun _ _ _ => ?_
    refine Program.Delivers.bind hpart fun _ _ _ => Program.Delivers.bind hpart fun _ _ _ => ?_
    refine Program.Delivers.bind hpart fun _ _ _ => Program.Delivers.bind hpart fun _ _ _ => ?_
    refine Program.Delivers.bind hpart fun _ _ _ => Program.Delivers.bind hpart fun _ _ _ => ?_
    refine Program.Delivers.bind hpart fun _ _ _ => Program.Delivers.bind hpart fun _ _ _ => ?_
    refine Program.Delivers.bind hpart fun _ _ _ => Program.Delivers.bind hpart fun _ _ _ => ?_
    exact Program.delivers_pure ⟨rfl, rfl⟩
  exact (keeping_observed only_observe).and hdelivers

/-- A creation that finds its workspace leaves it, and reports what is stored of it.  Nothing is
written, so what it reports is in the database it was asked in. -/
theorem createExisting_grants (hdb : w.db.Consistent) (hencoded : w.db.Encoded)
    (hactive : Active w.db record) (hname : record.reservation.name = request.name) :
    Safe (portEnvironment json installation) (fun _ _ => True) (Grants json request)
      (createExisting request record) w := by
  refine unlessFail_bind grants_error fun hinputs => ?_
  refine unlessFail_bind grants_error fun hready => ?_
  refine Safe.bind (x := port _ _) (keeping_part (Only.orFail (only_call rfl)))
    (fun _ w₁ h₁ => ?_) fun _ _ _ => grants_error
  refine Safe.bind (x := port _ _) (keeping_part (Only.orFail (only_call rfl)))
    (fun verifiedPath w₂ h₂ => ?_) fun _ _ _ => grants_error
  refine unlessFail_bind grants_error fun _ => ?_
  have hdb₂ : w₂.db = w.db := h₂.trans h₁
  refine ⟨trivial, fun found w₃ h₃ => ?_⟩
  have hdb₃ : w₃.db = w.db := (step_reading rfl h₃).trans hdb₂
  rcases found with e | found
  · exact grants_error
  · have hstate : (recordRow record).state = "ready" := congrArg WorkspaceState.asStr hready
    obtain ⟨stored, hstored, hid⟩ := hdb.ready_receipt _ hactive hstate
    obtain ⟨summary, rfl, htells⟩ :=
      finalMaterialization_tells hdb hencoded hactive hstored hid (hdb₂ ▸ h₃.2)
    intro _ made hmade
    obtain rfl := Except.ok.inj hmade
    have hretained : Retained json record summary w.db :=
      ⟨hdb, hencoded, hactive, hready, stored, hstored, hid, htells⟩
    exact ⟨hdb₃ ▸ hretained, hname, inputs_eq.mpr hinputs⟩

/-- **What a creation leaves**: where it succeeds, the workspace it reports is retained in the
database.  A name that is taken is reported by `createExisting_grants`, and a new one by
`reserveAndCreate_grants`. -/
theorem createImpl_grants (hdb : db.Consistent) (hencoded : db.Encoded) :
    Safe (portEnvironment json installation) (fun _ _ => True) (Grants json request)
      (createImpl request materializers) ⟨db, []⟩ := by
  refine Safe.bind (x := unlessFail _ _) (keeping_part only_unlessFail)
    (fun _ w₁ h₁ => ?_) fun _ _ _ => grants_error
  refine Safe.bind (x := readIdentity) (keeping_observed (only_readIdentity.mono
    observes_of_opensStore)) (fun identity w₂ h₂ => ?_) fun _ _ _ => grants_error
  refine Safe.bind (x := unlessFail _ _) (keeping_part only_unlessFail)
    (fun _ w₃ h₃ => ?_) fun _ _ _ => grants_error
  refine Safe.bind (x := openMetadata _ _) (keeping_observed (only_openMetadata.mono
    observes_of_opensStore)) (fun _ w₄ h₄ => ?_) fun _ _ _ => grants_error
  have hdb₄ : w₄.db = db := h₄.trans (h₃.trans (h₂.trans h₁))
  refine Safe.bind (x := port _ _) (listing_safe (fun _ => trivial) hdb₄)
    (fun records w₅ h₅ => ?_) fun _ _ _ => grants_error
  obtain ⟨hdb₅, hlisted⟩ := h₅
  cases hfound : findByName request.name records with
  | some existing =>
    obtain ⟨hactive, hname⟩ :=
      (findByName_iff hdb fun _ => listed_iff hencoded (hlisted records rfl)).mp hfound
    exact createExisting_grants (hdb₅ ▸ hdb) (hdb₅ ▸ hencoded) (hdb₅ ▸ hactive) hname
  | none =>
    refine Safe.bind (x := observe _ _ _) observe_requested (fun reservation w₆ h₆ => ?_)
      fun _ _ _ => grants_error
    have hdb₆ : w₆.db = db := h₆.1.trans hdb₅
    exact reserveAndCreate_grants (hdb₆ ▸ hdb) (hdb₆ ▸ hencoded) (h₆.2 reservation rfl)

/-- The identity that a creation went by, which was read from the configuration. -/
structure WentBy (request : CreateRequest) (materializers : Materializers)
    (identity : InstallationIdentity) (w : World) : Prop where
  available : materializers.available = true
  read : ⟨.readConfig, .ok (some identity)⟩ ∈ w.history
  apart : requestedPathsOverlap request.source request.target identity.dataRoot = false

/-- A creation that returned went by an identity it had read, and by the checks that are made
before the name is looked up. -/
theorem createImpl_wentBy :
    Safe (portEnvironment json installation) (fun _ _ => True)
      (fun outcome w' => ∀ made, outcome = .ok made →
        ∃ identity, WentBy request materializers identity w')
      (createImpl request materializers) w := by
  refine unlessFail_bind (fun _ h => by cases h) fun havailable => ?_
  have hread : Safe (portEnvironment json installation) (fun _ _ => True)
      (fun outcome w' => ∀ identity, outcome = .ok identity →
        ⟨.readConfig, .ok (some identity)⟩ ∈ w'.history) readIdentity w := by
    refine ⟨trivial, fun found w₁ h₁ => ?_⟩
    rcases found with e | found
    · exact fun _ h => by cases h
    · cases found with
      | none => exact fun _ h => by cases h
      | some identity =>
        rintro _ ⟨⟩
        rw [step_history h₁]
        exact List.mem_append_right _ (List.mem_singleton_self _)
  refine Safe.bind (x := readIdentity) hread (fun identity w₁ h₁ => ?_) fun _ _ _ _ h => by cases h
  refine unlessFail_bind (fun _ h => by cases h) fun hapart => ?_
  exact safe_grows.mono fun _ _ h _ _ =>
    ⟨identity, havailable, h _ (h₁ identity rfl), hapart⟩

/-! ### The sequence

Between the two requests any creations and removals may happen that do not select the
record.  They retain it, so the answer to the second request is the first one's. -/

/-- No two active rows have one name, as the unique column demands. -/
def DistinctNames (db : Database) : Prop := (db.workspaces.map (·.name)).Nodup

/-- What a creation with the name of the first request does in a database: it only observes,
with other inputs it fails, and with the same inputs it returns what the first one returned,
with `created = false`, whenever its reads succeed, which they can. -/
structure AnswersAgain (json : JsonLibrary) (installation : InstallationRecord)
    (request : CreateRequest) (identity : InstallationIdentity) (first : CreateOutcome)
    (db : Database) : Prop where
  observes : ∀ again materializers c w, again.name = request.name →
    Program.Issues (portEnvironment json installation) (createImpl again materializers) ⟨db, []⟩
      c w → c.observes = true
  refused : ∀ again materializers outcome w, again.name = request.name →
    again.inputs ≠ request.inputs →
    Returns (portEnvironment json installation) (createImpl again materializers) ⟨db, []⟩
      outcome w → ∃ e, outcome = .error e
  same : ∀ again materializers outcome w, again.name = request.name →
    again.inputs = request.inputs → materializers.available = true →
    Returns (portEnvironment json installation) (createImpl again materializers) ⟨db, []⟩
      outcome w → w.Succeeds identity →
    outcome = .ok ⟨first.record, first.materialization, false⟩
  returns : ∀ again materializers, again.name = request.name → again.inputs = request.inputs →
    materializers.available = true → ∃ w,
      Returns (portEnvironment json installation) (createImpl again materializers) ⟨db, []⟩
        (.ok ⟨first.record, first.materialization, false⟩) w ∧ w.Succeeds identity
  names : DistinctNames db

/-- Where the record and its receipt are retained, the same request is answered with them again.
The name is looked up again, the record has the same inputs, and its receipt reads back; the second
half says this of every quiet answer of the ports. -/
theorem Retained.answersAgain {first : CreateOutcome}
    (h : Retained json first.record first.materialization db)
    (hrequested : Requested request first.record.reservation)
    (hapart : requestedPathsOverlap request.source request.target identity.dataRoot = false) :
    AnswersAgain json installation request identity first db := by
  have hyields : ∀ (again : CreateRequest) (materializers : Materializers),
      again.name = request.name → again.inputs = request.inputs →
      materializers.available = true →
        Yields json installation identity db ⟨first.record, first.materialization, false⟩
          (createImpl again materializers) := by
    intro again materializers hname hinputs havailable
    obtain ⟨hsource, htarget, -⟩ :
        again.source = request.source ∧ again.target = request.target ∧
          again.allowFullCopy = request.allowFullCopy := by
      simpa only [CreateRequest.inputs, Prod.mk.injEq] using hinputs
    refine createImpl_yields h ⟨hrequested.name.trans hname.symm,
      hrequested.inputs.trans hinputs.symm⟩ havailable ?_
    rw [hsource, htarget]
    exact hapart
  constructor
  case observes =>
    intro again materializers c w hname run
    exact (createImpl_observes h.consistent h.encoded h.active
      (hrequested.name.trans hname.symm)).of_issues run
  case refused =>
    intro again materializers outcome w hname hinputs run
    refine (createImpl_observes h.consistent h.encoded h.active
      (hrequested.name.trans hname.symm)).of_returns run ?_
    rw [hrequested.inputs]
    exact hinputs.symm
  case same =>
    intro again materializers outcome w hname hinputs havailable run hsucceeds
    exact ((hyields again materializers hname hinputs havailable []).of_returns
      (returns_steady run hsucceeds)).1
  case returns =>
    intro again materializers hname hinputs havailable
    have hsafe := hyields again materializers hname hinputs havailable []
    obtain ⟨outcome, w, run⟩ := hsafe.exists_returns fun _ _ hlive => hlive
    obtain ⟨rfl, -⟩ := hsafe.of_returns run
    have hless : ∀ w c r w', (steady json installation identity).step w c r w' →
        (portEnvironment json installation).step w c r w' := fun _ _ _ _ step => step.1
    refine ⟨w, run.weaken hless, steady_succeeds run fun _ he => ?_⟩
    exact absurd he List.not_mem_nil
  case names => exact h.consistent.names_nodup

/-- A run keeps the names apart, at every moment, since the column is unique. -/
theorem visits_distinctNames (hdb : db.Consistent) {x : UseCase α}
    (run : Visits (portEnvironment json installation) x ⟨db, []⟩ w) : DistinctNames w.db := by
  have hconsistent := Program.safe_true.of_visits (fun w : World => w.db.Consistent) hdb
    (fun _ _ _ _ _ hw step => step_consistent step hw) run
  exact hconsistent.names_nodup

/-- **A creation that is made again is answered, not repeated.**  After a creation that
returned, on any reachable database, and after any sequence of creations and of removals that
do not select its workspace, each stopped anywhere, a creation with its name is answered as
`AnswersAgain` says; and no two active rows have one name, in the run of the first creation
and in the sequence. -/
theorem create_retry_idempotent (json : JsonLibrary) (installation : InstallationRecord)
    (request : CreateRequest) (materializers : Materializers)
    (calls : List (Metadata.Call × List Bool)) {first : CreateOutcome} {w : World}
    (run : Returns (portEnvironment json installation) (createImpl request materializers)
      ⟨Metadata.runCalls json installation (.initialized installation) calls, []⟩ (.ok first) w)
    (hfaithful : CommitsFaithful json w) :
    (∃ identity, WentBy request materializers identity w ∧
      ∀ db, Follows json installation first.record w.db db →
        AnswersAgain json installation request identity first db) ∧
    ∀ w₁, Visits (portEnvironment json installation) (createImpl request materializers)
      ⟨Metadata.runCalls json installation (.initialized installation) calls, []⟩ w₁ →
        DistinctNames w₁.db := by
  have hdb := Metadata.consistent_runCalls json installation calls
  have hencoded := Metadata.encoded_runCalls json installation calls
  obtain ⟨hretained, hrequested⟩ :=
    (createImpl_grants hdb hencoded).of_returns run hfaithful first rfl
  obtain ⟨identity, hwent⟩ := createImpl_wentBy.of_returns run first rfl
  refine ⟨⟨identity, hwent, fun db hfollows => ?_⟩, fun w₁ visited => ?_⟩
  · exact (hfollows.retained hretained).answersAgain hrequested hwent.apart
  · exact visits_distinctNames hdb visited

/-- The clone of an empty directory, made again: whatever follows the first creation, the second
request is answered with its outcome. -/
theorem create_retry_idempotent_cloned : ∃ w,
    Returns (portEnvironment sampleDocumentLibrary sampleInstallation)
        (createImpl sampleCreate sampleMaterializers) ⟨.initialized sampleInstallation, []⟩
        (.ok ⟨sampleReady, summaryOf sampleReceipt, true⟩) w ∧
      ∃ identity, WentBy sampleCreate sampleMaterializers identity w ∧
        ∀ db, Follows sampleDocumentLibrary sampleInstallation sampleReady w.db db →
          AnswersAgain sampleDocumentLibrary sampleInstallation sampleCreate identity
            ⟨sampleReady, summaryOf sampleReceipt, true⟩ db := by
  have hreads := documentLibrary_readsBack sampleDocument (Metadata.finalReceiptJson sampleReceipt)
  obtain ⟨w, run, -, honly⟩ := sampleCreate_run hreads.valid_toText
  refine ⟨w, run, (create_retry_idempotent sampleDocumentLibrary sampleInstallation sampleCreate
    sampleMaterializers [] run fun id plan receipt now r hmem => ?_).1⟩
  obtain ⟨rfl, rfl⟩ := honly id plan receipt now r hmem
  exact ⟨samplePlan_built, sampleReceipt_built, hreads⟩

end Application
end ThinWorkspace
