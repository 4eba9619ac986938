/-
# The dry run of a creation

Source: `crates/thinws-application/src/create.rs`, `preview_create` beside
`create_impl`.  Both are written out in full there, with their checks in different
orders: `previewCreate` is the first, `planCreation` is the second up to the
reservation (`createImpl_eq`).

`Surroundings` is a state that both meet unchanged.  Each of the two succeeds in it
exactly where the request is `Cleared`, so `dry_run_agrees` compares the conditions
and not the orders.
-/

import ThinWorkspace.Application.Create
import ThinWorkspace.Application.CreateOutcome
import ThinWorkspace.Application.Siblings
import ThinWorkspace.Metadata.Readable

namespace ThinWorkspace
namespace Application

open ThinWorkspace.Core Lib Ports
open Metadata (Database)
open Program (Only Returns Issues evaluate)

/-! ### The use case

The dry run and the creation are written out in full in the source, each with its own
sequence of checks.  `planCreation` is the creation up to its reservation, so that the two
can be compared; `createImpl_eq` says that it is this part of the code. -/

/-- `CreatePreview`: what a dry run shows of the plan that a creation would follow. -/
structure CreatePreview where
  target : AbsolutePath
  sourceVolumeId : VolumeId
  targetVolumeId : VolumeId
  effectiveMode : MaterializationMode
  selectedAdapter : MaterializerKind
  fallbackReason : Option FallbackReason
deriving DecidableEq

/-- The preview that `preview_create` returns for a plan: the plan's volumes, mode, adapter and
fallback with the requested target. -/
def previewOf (request : CreateRequest) (plan : MaterializationPlan) : CreatePreview where
  target := request.target
  sourceVolumeId := plan.sourceVolumeId
  targetVolumeId := plan.targetVolumeId
  effectiveMode := plan.effectiveMode
  selectedAdapter := plan.selectedAdapter
  fallbackReason := plan.fallbackReason

/-- `preview_create`: the checks of a creation in the same order, on a snapshot instead of an open
store, and without a reservation. -/
def previewCreate (request : CreateRequest) : UseCase CreatePreview := do
  let identity ← readIdentity
  unlessFail (requestedPathsOverlap request.source request.target identity.dataRoot = false)
    (semanticError .targetLayout "source, target, and control root must not overlap")
  port .control (call (.validateLayout identity))
  requireReadyMarker identity
  let snapshot ← port .metadata (call (.inspectMetadata ⟨identity, request.now⟩))
  check (requireNoActiveWorkspacePathOverlap request.target snapshot.workspaces)
  let source ← port .source (call (.inspectPath request.source))
  check (requireExistingSource source)
  let parent ← check (targetParent request.target)
  let workspaceId ← call .newWorkspaceId
  let paths ← check
    (provisionalMaterializationPaths request.source request.target parent workspaceId)
  let report ← port .layout (call (.inspectMaterializationPaths paths))
  check (requireExistingSource report.source)
  requireNoIdentityOverlap report.targetRoot snapshot.workspaces
  check (requireMissingTarget report.targetRoot parent)
  let dataRootReport ← port .layout (call (.inspectPath identity.dataRoot))
  unlessFail (materializationOverlapsControl report.source report.targetRoot dataRootReport = false)
    (semanticError .targetLayout "source or target overlaps the control root")
  let plan ← check (selectPlan report request.allowFullCopy)
  port .layout (call .layoutRevalidate)
  requireReadyMarker identity
  pure (previewOf request plan)

/-- `create_impl` up to the reservation: the outcome for a name that is taken, or
the installation and the reservation to make. -/
def planCreation (request : CreateRequest) (materializers : Materializers) :
    UseCase (CreateOutcome ⊕ InstallationIdentity × WorkspaceReservation) := do
  unlessFail (materializers.available = true)
    (semanticError .capabilityUnavailable "required materialization backend is unavailable")
  let identity ← readIdentity
  unlessFail (requestedPathsOverlap request.source request.target identity.dataRoot = false)
    (semanticError .targetLayout "source, target, and control root must not overlap")
  openMetadata identity request.now
  let active ← port .metadata (call .workspaces)
  match findByName request.name active with
  | some existing => do
    let outcome ← createExisting request existing
    pure (.inl outcome)
  | none => do
    let reservation ← observe request identity active
    pure (.inr (identity, reservation))

/-- `create_impl` from where `planCreation` ends: either the outcome is known already, or the
reservation is made and carried out. -/
def carryOut (request : CreateRequest) (materializers : Materializers) :
    CreateOutcome ⊕ InstallationIdentity × WorkspaceReservation → UseCase CreateOutcome
  | .inl outcome => pure outcome
  | .inr (identity, reservation) => reserveAndCreate request materializers identity reservation

variable {request : CreateRequest} {materializers : Materializers}

/-- **A creation is a planning and what it plans**: `create_impl` is `planCreation`, which ends at
the reservation or with an earlier outcome, and then `carryOut`. -/
theorem createImpl_eq : createImpl request materializers =
    planCreation request materializers >>= carryOut request materializers := by
  unfold createImpl planCreation
  simp only [Program.bind_assoc]
  refine congrArg _ (funext fun _ => congrArg _ (funext fun identity => congrArg _ (funext fun _ =>
    congrArg _ (funext fun _ => congrArg _ (funext fun active => ?_)))))
  cases findByName request.name active with
  | none =>
    refine Eq.trans ?_ (Program.bind_assoc _ _ _).symm
    rfl
  | some existing =>
    refine Eq.trans ?_ (Program.bind_assoc _ _ _).symm
    exact (Program.bind_pure _).symm

/-! ### What both only observe

Both make observing calls only, so every answer in such a run is one of the surroundings. -/

/-- A dry run makes observing calls only, so it changes nothing. -/
theorem only_previewCreate : Only (fun c => c.observes = true) (previewCreate request) := by
  have hmarker {identity : InstallationIdentity} :
      Only (fun c => c.observes = true) (requireReadyMarker identity) :=
    only_requireReadyMarker.mono observes_of_opensStore
  refine Only.bind (only_readIdentity.mono observes_of_opensStore) fun _ => ?_
  refine Only.bind only_unlessFail fun _ => Only.bind (Only.orFail (only_call rfl)) fun _ => ?_
  refine Only.bind hmarker fun _ => Only.bind (Only.orFail (only_call rfl)) fun _ => ?_
  refine Only.bind only_check fun _ => Only.bind (Only.orFail (only_call rfl)) fun _ => ?_
  refine Only.bind only_check fun _ => Only.bind only_check fun _ => ?_
  refine Only.bind (only_call rfl) fun _ => Only.bind only_check fun _ => ?_
  refine Only.bind (Only.orFail (only_call rfl)) fun _ => Only.bind only_check fun _ => ?_
  refine Only.bind (only_requireNoIdentityOverlap fun _ => rfl) fun _ => ?_
  refine Only.bind only_check fun _ => Only.bind (Only.orFail (only_call rfl)) fun _ => ?_
  refine Only.bind only_unlessFail fun _ => Only.bind only_check fun _ => ?_
  exact Only.bind (Only.orFail (only_call rfl)) fun _ =>
    Only.bind hmarker fun _ => Program.only_pure

/-- The planning of a creation makes observing calls only, up to its reservation. -/
theorem only_planCreation :
    Only (fun c => c.observes = true) (planCreation request materializers) := by
  refine Only.bind only_unlessFail fun _ =>
    Only.bind (only_readIdentity.mono observes_of_opensStore) fun _ => ?_
  refine Only.bind only_unlessFail fun _ =>
    Only.bind (only_openMetadata.mono observes_of_opensStore) fun _ => ?_
  refine Only.bind (Only.orFail (only_call rfl)) fun active => ?_
  cases findByName request.name active with
  | some existing => exact Only.bind only_createExisting fun _ => Program.only_pure
  | none => exact Only.bind only_observe fun _ => Program.only_pure

/-! ### The outcome where the answers are known

Where every call has a known answer, a part of either use case succeeds exactly under a
condition on the answers.  These lemmas state the condition for the parts that both share.
-/

section Evaluating

variable {answer : (c : PortCall) → c.Result} {α : Type} {a : α}

/-- Where the answers are known, a pure check returns what it computes. -/
theorem evaluate_check_ok {r : Except UseCaseError α} :
    evaluate answer (check r) = .ok a ↔ r = .ok a :=
  Program.evaluate_ofExcept_ok

/-- A condition is passed exactly where it holds. -/
theorem evaluate_unlessFail_ok {p : Prop} [Decidable p] {e : UseCaseError} {u : Unit} :
    evaluate answer (unlessFail p e) = .ok u ↔ p := by
  unfold unlessFail
  split
  · exact iff_of_true rfl ‹p›
  · exact iff_of_false nofun ‹¬p›

/-- A value that has to be there is returned exactly where it is. -/
theorem evaluate_orMissing_ok {e : UseCaseError} {value : Option α} :
    evaluate answer (orMissing e value) = .ok a ↔ value = some a := by
  cases value with
  | none => exact iff_of_false nofun nofun
  | some _ => exact ⟨fun h => congrArg some (Except.ok.inj h), fun h => by cases h; rfl⟩

/-- The identity is read exactly where the configuration has one. -/
theorem evaluate_readIdentity_ok {identity : InstallationIdentity} :
    evaluate answer readIdentity = .ok identity ↔ answer .readConfig = .ok (some identity) := by
  unfold readIdentity
  simp only [Program.evaluate_bind_ok, Program.evaluate_orFail_ok, Program.evaluate_perform,
    evaluate_orMissing_ok, Except.ok.injEq, exists_eq_right]

/-- The ready marker is accepted exactly where the data root has the marker of this identity, and
it says ready. -/
theorem evaluate_requireReadyMarker_ok {identity : InstallationIdentity} {u : Unit} :
    evaluate answer (requireReadyMarker identity) = .ok u ↔
      answer (.readRootMarker identity.dataRoot) = .ok (some ⟨identity, .ready⟩) := by
  unfold requireReadyMarker
  simp only [Program.evaluate_bind_ok, Program.evaluate_orFail_ok, Program.evaluate_perform,
    evaluate_unlessFail_ok, Except.ok.injEq, exists_eq_right]

/-- Where the lock can be had, opening the store is a question of layout and marker.  With the lock
and its revalidation answered, the steps that can still fail are the layout, the marker and the
opening itself. -/
theorem evaluate_openMetadata_ok {identity : InstallationIdentity} {now : UnixMillis} {u : Unit}
    (lock : answer (.acquireDataRoot identity.dataRoot) = .ok ())
    (lockKept : answer .lockRevalidate = .ok ()) :
    evaluate answer (openMetadata identity now) = .ok u ↔
      answer (.validateLayout identity) = .ok () ∧
        answer (.readRootMarker identity.dataRoot) = .ok (some ⟨identity, .ready⟩) ∧
        answer (.openExisting ⟨identity, now⟩) = .ok () := by
  have hlock : evaluate answer (acquireLock identity) = .ok () := by
    unfold acquireLock
    rw [Program.evaluate_bind, Program.evaluate_perform, lock]
    rfl
  unfold openMetadata
  simp only [Program.evaluate_bind_ok, Program.evaluate_orFail_ok, Program.evaluate_perform,
    evaluate_requireReadyMarker_ok, hlock, lockKept, Except.ok.injEq]
  constructor
  · rintro ⟨_, hlayout, _, _, _, _, _, _, _, hmarker, hopened⟩
    exact ⟨hlayout, hmarker, hopened⟩
  · rintro ⟨hlayout, hmarker, hopened⟩
    exact ⟨(), hlayout, (), trivial, (), trivial, (), hlayout, (), hmarker, hopened⟩

/-! ### Checks on every active row

Loops over the active rows succeed exactly when their body does for each row, so the order
of the rows plays no part. -/

/-- A target is apart from a list of records exactly where it is apart from each of them, so the
order of the rows does not matter. -/
theorem requireNoActiveWorkspacePathOverlap_iff {target : AbsolutePath}
    {active : List WorkspaceRecord} :
    requireNoActiveWorkspacePathOverlap target active = .ok () ↔
      ∀ record ∈ active, requireNoActiveWorkspacePathOverlap target [record] = .ok () := by
  induction active with
  | nil => exact iff_of_true rfl fun _ h => absurd h List.not_mem_nil
  | cons record active ih =>
    rw [List.forall_mem_cons, ← ih]
    simp only [requireNoActiveWorkspacePathOverlap]
    cases activeWorkspaceProtectedPaths record.reservation with
    | error e => exact iff_of_false nofun nofun
    | ok paths =>
      by_cases hoverlap : paths.any fun path => pathsOverlap path target
      · simp only [bind, Except.bind, hoverlap]
        exact iff_of_false nofun nofun
      · simp only [bind, Except.bind, hoverlap]
        exact (and_iff_right rfl).symm

/-- The same of the overlap by identity, whose probes are answered in a known way.  The induction
is on the records, and a record of another volume is passed over without a probe. -/
theorem evaluate_requireNoIdentityOverlap_iff {target : PathCapabilityReport}
    {active : List WorkspaceRecord} :
    evaluate answer (requireNoIdentityOverlap target active) = .ok () ↔
      ∀ record ∈ active, evaluate answer (requireNoIdentityOverlap target [record]) = .ok () := by
  unfold requireNoIdentityOverlap
  cases target.filesystem.volumeId with
  | unknown _ _ => exact iff_of_true rfl fun _ _ => rfl
  | known volume =>
    induction active with
    | nil => exact iff_of_true rfl fun _ h => absurd h List.not_mem_nil
    | cons record active ih =>
      rw [List.forall_mem_cons, ← ih]
      simp only [requireNoActiveWorkspaceIdentityOverlap]
      by_cases hvolume : record.reservation.targetVolumeId ≠ volume
      · rw [if_pos hvolume, if_pos hvolume]
        exact (and_iff_right rfl).symm
      · rw [if_neg hvolume, if_neg hvolume]
        simp only [Program.evaluate_bind_ok]
        constructor
        · rintro ⟨paths, hpaths, _, hat, hrest⟩
          exact ⟨⟨paths, hpaths, _, hat, rfl⟩, hrest⟩
        · rintro ⟨⟨paths, hpaths, _, hat, _⟩, hrest⟩
          exact ⟨paths, hpaths, _, hat, hrest⟩

/-! ### The requirements on a request

The conditions of all parts together: `Installed` for the installation, `Cleared` for the
paths, `Selected` for the plan.  A dry run succeeds exactly where they hold of its list, and
a creation gets to its reservation exactly where they hold of its own. -/

/-- What both use cases require of the installation: its identity, a request apart from the control
root, a valid layout and the ready marker. -/
structure Installed (answer : (c : PortCall) → c.Result) (request : CreateRequest)
    (identity : InstallationIdentity) : Prop where
  config : answer .readConfig = .ok (some identity)
  apart : requestedPathsOverlap request.source request.target identity.dataRoot = false
  layout : answer (.validateLayout identity) = .ok ()
  marker : answer (.readRootMarker identity.dataRoot) = .ok (some ⟨identity, .ready⟩)

/-- What both require of the paths before they select a plan, in terms of the joint
probe and the active records. -/
structure Cleared (answer : (c : PortCall) → c.Result) (request : CreateRequest)
    (identity : InstallationIdentity) (active : List WorkspaceRecord) (parent : AbsolutePath)
    (report : MaterializationPathReport) : Prop where
  paths : requireNoActiveWorkspacePathOverlap request.target active = .ok ()
  source : requireExistingSource report.source = .ok ()
  below : targetParent request.target = .ok parent
  identities : evaluate answer (requireNoIdentityOverlap report.targetRoot active) = .ok ()
  missing : requireMissingTarget report.targetRoot parent = .ok ()
  control : ∃ control, answer (.inspectPath identity.dataRoot) = .ok control ∧
    materializationOverlapsControl report.source report.targetRoot control = false

/-- The joint probe that the answers give for the paths of a request, with the plan
selected from it. -/
def Selected (answer : (c : PortCall) → c.Result) (request : CreateRequest)
    (parent : AbsolutePath) (report : MaterializationPathReport) (plan : MaterializationPlan) :
    Prop :=
  ∃ probe, provisionalMaterializationPaths request.source request.target parent
      (answer .newWorkspaceId) = .ok probe ∧
    answer (.inspectMaterializationPaths probe) = .ok report ∧
    selectPlan report request.allowFullCopy = .ok plan

/-- The paths that are probed for a request contain the requested source. -/
theorem provisionalMaterializationPaths_source {source target parent : AbsolutePath}
    {id : WorkspaceId} {probe : MaterializationPathProbeRequest}
    (h : provisionalMaterializationPaths source target parent id = .ok probe) :
    probe.source = source := by
  unfold provisionalMaterializationPaths at h
  obtain ⟨_, _, h⟩ := Fallible.bind_ok h
  obtain ⟨_, _, h⟩ := Fallible.bind_ok h
  exact (congrArg (·.source) (Except.ok.inj h)).symm

variable (hprobe : ∀ probe report, answer (.inspectMaterializationPaths probe) = .ok report →
  answer (.inspectPath probe.source) = .ok report.source)
include hprobe

/-- **Where a dry run succeeds**: where the installation is in order, the request is cleared
against the rows of the snapshot, and a plan is selected, which is the one it shows. -/
theorem evaluate_previewCreate_ok {preview : CreatePreview} :
    evaluate answer (previewCreate request) = .ok preview ↔
      ∃ identity snapshot parent report plan,
        answer (.inspectMetadata ⟨identity, request.now⟩) = .ok snapshot ∧
        answer .layoutRevalidate = .ok () ∧ Installed answer request identity ∧
        Cleared answer request identity snapshot.workspaces parent report ∧
        Selected answer request parent report plan ∧ preview = previewOf request plan := by
  unfold previewCreate
  simp only [Program.evaluate_bind_ok, Program.evaluate_orFail_ok, Program.evaluate_perform,
    Program.evaluate_pure, evaluate_unlessFail_ok, evaluate_check_ok, evaluate_readIdentity_ok,
    evaluate_requireReadyMarker_ok, Except.ok.injEq]
  constructor
  · rintro ⟨identity, hconfig, _, hapart, _, hlayout, _, hmarker, snapshot, hsnapshot, _, hpaths,
      _, _, _, _, parent, hparent, _, rfl, probe, hprovisional, report, hreport, _, hsource, _,
      hidentities, _, hmissing, control, hcontrol, _, hoverlap, plan, hplan, _, hkept, _, _, rfl⟩
    exact ⟨identity, snapshot, parent, report, plan, hsnapshot, hkept,
      ⟨hconfig, hapart, hlayout, hmarker⟩,
      ⟨hpaths, hsource, hparent, hidentities, hmissing, control, hcontrol, hoverlap⟩,
      ⟨probe, hprovisional, hreport, hplan⟩, rfl⟩
  · rintro ⟨identity, snapshot, parent, report, plan, hsnapshot, hkept, hi, h, hselected, rfl⟩
    obtain ⟨probe, hprovisional, hreport, hplan⟩ := hselected
    obtain ⟨control, hcontrol, hoverlap⟩ := h.control
    have hinspected := hprobe _ _ hreport
    rw [provisionalMaterializationPaths_source hprovisional] at hinspected
    exact ⟨identity, hi.config, (), hi.apart, (), hi.layout, (), hi.marker, snapshot, hsnapshot,
      (), h.paths, report.source, hinspected, (), h.source, parent, h.below, _, rfl, probe,
      hprovisional, report, hreport, (), h.source, (), h.identities, (), h.missing, control,
      hcontrol, (), hoverlap, plan, hplan, (), hkept, (), hi.marker, rfl⟩

/-- The reservation made under a plan: the request with the volumes of the plan and the identifier
that was drawn. -/
def reservationOf (request : CreateRequest) (identity : InstallationIdentity) (id : WorkspaceId)
    (plan : MaterializationPlan) : WorkspaceReservation where
  workspaceId := id
  instanceId := identity.instanceId
  name := request.name
  sourcePath := request.source
  targetPath := request.target
  sourceVolumeId := plan.sourceVolumeId
  targetVolumeId := plan.targetVolumeId
  allowFullCopy := request.allowFullCopy
  createdAt := request.now

/-- The observations of a creation lead to a reservation exactly where the request is cleared and a
plan is selected.  The observations are followed in the order of the source, and each check is one
field of what is cleared. -/
theorem evaluate_observe_ok {identity : InstallationIdentity} {active : List WorkspaceRecord}
    {reservation : WorkspaceReservation} :
    evaluate answer (observe request identity active) = .ok reservation ↔
      ∃ parent report plan, Cleared answer request identity active parent report ∧
        Selected answer request parent report plan ∧
        reservation = reservationOf request identity (answer .newWorkspaceId) plan := by
  unfold observe
  simp only [Program.evaluate_bind_ok, Program.evaluate_orFail_ok, Program.evaluate_perform,
    Program.evaluate_pure, evaluate_unlessFail_ok, evaluate_check_ok, Except.ok.injEq]
  constructor
  · rintro ⟨_, hpaths, source, hinspected, _, _, control, hcontrol, _, hapart, parent, hparent, _,
      rfl, probe, hprovisional, report, hreport, _, hsource, _, hidentities, _, hmissing, _,
      henters, plan, hplan, rfl⟩
    have hsame := hprobe _ _ hreport
    rw [provisionalMaterializationPaths_source hprovisional, hinspected] at hsame
    obtain rfl := Except.ok.inj hsame
    exact ⟨parent, report, plan, ⟨hpaths, hsource, hparent, hidentities, hmissing, control,
      hcontrol, Bool.or_eq_false_iff.mpr ⟨hapart, henters⟩⟩,
      ⟨probe, hprovisional, hreport, hplan⟩, rfl⟩
  · rintro ⟨parent, report, plan, h, ⟨probe, hprovisional, hreport, hplan⟩, rfl⟩
    obtain ⟨control, hcontrol, hoverlap⟩ := h.control
    obtain ⟨hapart, henters⟩ := Bool.or_eq_false_iff.mp hoverlap
    have hinspected := hprobe _ _ hreport
    rw [provisionalMaterializationPaths_source hprovisional] at hinspected
    exact ⟨(), h.paths, report.source, hinspected, (), h.source, control, hcontrol, (), hapart,
      parent, h.below, _, rfl, probe, hprovisional, report, hreport, (), h.source, (), h.identities,
      (), h.missing, (), henters, plan, hplan, rfl⟩

/-- **Where a creation gets to its reservation**, once its lock is held and its name is free: where
the same conditions hold of the rows it reads itself. -/
theorem evaluate_planCreation_ok (hmaterializers : materializers.available = true)
    (lock : ∀ dataRoot, answer (.acquireDataRoot dataRoot) = .ok ())
    (lockKept : answer .lockRevalidate = .ok ())
    (hname : ∀ active, answer .workspaces = .ok active → findByName request.name active = none)
    {identity : InstallationIdentity} {reservation : WorkspaceReservation} :
    evaluate answer (planCreation request materializers) = .ok (.inr (identity, reservation)) ↔
      ∃ active parent report plan,
        answer (.openExisting ⟨identity, request.now⟩) = .ok () ∧
        answer .workspaces = .ok active ∧ Installed answer request identity ∧
        Cleared answer request identity active parent report ∧
        Selected answer request parent report plan ∧
        reservation = reservationOf request identity (answer .newWorkspaceId) plan := by
  unfold planCreation
  simp only [Program.evaluate_bind_ok, Program.evaluate_orFail_ok, Program.evaluate_perform,
    evaluate_unlessFail_ok, evaluate_readIdentity_ok, Except.ok.injEq,
    evaluate_openMetadata_ok (lock _) lockKept]
  constructor
  · rintro ⟨_, _, found, hconfig, _, hapart, _, ⟨hlayout, hmarker, hopened⟩, active, hactive, h⟩
    rw [hname active hactive] at h
    obtain ⟨reserved, hobserve, h⟩ := Program.evaluate_bind_ok.mp h
    obtain ⟨rfl, rfl⟩ := Prod.mk.inj (Sum.inr.inj (Except.ok.inj h))
    obtain ⟨parent, report, plan, hcleared, hselected, heq⟩ :=
      (evaluate_observe_ok hprobe).mp hobserve
    exact ⟨active, parent, report, plan, hopened, hactive, ⟨hconfig, hapart, hlayout, hmarker⟩,
      hcleared, hselected, heq⟩
  · rintro ⟨active, parent, report, plan, hopened, hactive, hi, hcleared, hselected, heq⟩
    refine ⟨(), hmaterializers, identity, hi.config, (), hi.apart, (),
      ⟨hi.layout, hi.marker, hopened⟩, active, hactive, ?_⟩
    rw [hname active hactive]
    have hobserve := (evaluate_observe_ok hprobe).mpr
      ⟨parent, report, plan, hcleared, hselected, heq⟩
    exact Program.evaluate_bind_ok.mpr ⟨reservation, hobserve, rfl⟩

end Evaluating

/-! ### A state that does not change

A state that does not change still gives different identifiers to the two runs.
`Surroundings` fixes every answer but this one, and asks that the probes of two fresh
siblings differ only in their names. -/

/-- Two probes of paths that differ only in a fresh name: the capabilities and the ancestry around
it are the same. -/
structure SameSibling (a b : PathCapabilityReport) : Prop where
  resolution : a.resolution = b.resolution
  nearestExistingAncestor : a.nearestExistingAncestor = b.nearestExistingAncestor
  ancestry : a.ancestry = b.ancestry
  filesystem : a.filesystem = b.filesystem
  mount : a.mount = b.mount
  readability : a.readability = b.readability
  writability : a.writability = b.writability
  cowClone : a.cowClone = b.cowClone

/-- Two joint probes that differ only in the fresh names of the siblings. -/
structure SameProbe (a b : MaterializationPathReport) : Prop where
  source : a.source = b.source
  targetRoot : a.targetRoot = b.targetRoot
  staging : SameSibling a.staging b.staging
  trash : SameSibling a.trash b.trash
  cowClone : a.cowClone = b.cowClone
  fullCopy : a.fullCopy = b.fullCopy

/-- A metadata and filesystem state that stays as it is: every call has its one
answer.  The data-root lock can be had, the metadata calls answer from the database,
and the probe answers as a function of the paths, whatever the fresh names are. -/
structure Surroundings (json : JsonLibrary) (db : Database) where
  answer : (c : PortCall) → c.Result
  lock : ∀ dataRoot, answer (.acquireDataRoot dataRoot) = .ok ()
  lockKept : answer .lockRevalidate = .ok ()
  rows : StoreStep Metadata.workspaces db (answer .workspaces) db
  snapshot : ∀ expected,
    StoreStep (inspectSnapshot json) db (answer (.inspectMetadata expected)) db
  /-- `inspect` itself ends with the revalidation of the layout. -/
  layoutKept : ∀ expected snapshot, answer (.inspectMetadata expected) = .ok snapshot →
    answer .layoutRevalidate = .ok ()
  probe : ∀ probe report, answer (.inspectMaterializationPaths probe) = .ok report →
    answer (.inspectPath probe.source) = .ok report.source
  siblings : ∀ source target parent id id' probe probe' report,
    provisionalMaterializationPaths source target parent id = .ok probe →
    provisionalMaterializationPaths source target parent id' = .ok probe' →
    answer (.inspectMaterializationPaths probe) = .ok report →
    ∃ report', answer (.inspectMaterializationPaths probe') = .ok report' ∧
      SameProbe report report'

variable {json : JsonLibrary} {db : Database}

/-- The answers in a run that draws the given identifier: those of the surroundings, with that
identifier as the new one. -/
def Surroundings.answerDrawing (s : Surroundings json db) (drawn : WorkspaceId) :
    (c : PortCall) → c.Result
  | .newWorkspaceId => drawn
  | c => s.answer c

/-- The world of a run in these surroundings that draws the given identifier: a call
that observes has its answer and changes nothing, any other call may do what it may
do in any world. -/
def Surroundings.environment (s : Surroundings json db) (installation : InstallationRecord)
    (drawn : WorkspaceId) : Environment PortCall PortCall.Result World where
  step w c r w' := w'.history = w.history ++ [⟨c, r⟩] ∧
    if c.observes then r = s.answerDrawing drawn c ∧ w'.db = w.db
    else c.effect json installation w.db r w'.db

variable {s : Surroundings json db} {installation : InstallationRecord} {drawn : WorkspaceId}
  {w w' : World}

/-- The joint probe shows of the source what the source's own probe shows, whichever identifier is
drawn. -/
theorem Surroundings.probeDrawing (s : Surroundings json db)
    (probe : MaterializationPathProbeRequest) (report : MaterializationPathReport)
    (h : s.answerDrawing drawn (.inspectMaterializationPaths probe) = .ok report) :
    s.answerDrawing drawn (.inspectPath probe.source) = .ok report.source :=
  s.probe probe report h

/-- A call that only observes is answered as the surroundings say. -/
theorem Surroundings.known {c : PortCall} {r : c.Result} (hc : c.observes = true)
    (h : (s.environment installation drawn).step w c r w') : r = s.answerDrawing drawn c := by
  obtain ⟨-, h⟩ := h
  rw [if_pos hc] at h
  exact h.1

/-- Every observing call has an answer, so a run never gets stuck in one. -/
theorem Surroundings.live {c : PortCall} (hc : c.observes = true) :
    ∃ w', (s.environment installation drawn).step w c (s.answerDrawing drawn c) w' := by
  refine ⟨⟨w.db, w.history ++ [⟨c, s.answerDrawing drawn c⟩]⟩, rfl, ?_⟩
  rw [if_pos hc]
  exact ⟨rfl, rfl⟩

/-- The two open modes list the same records: the snapshot of the dry run and the rows of the
creation have the same members. -/
theorem Surroundings.mem_snapshot {expected : InstallationRecord} {snapshot : MetadataSnapshot}
    {active : List WorkspaceRecord}
    (hsnapshot : s.answer (.inspectMetadata expected) = .ok snapshot)
    (hactive : s.answer .workspaces = .ok active) (record : WorkspaceRecord) :
    record ∈ snapshot.workspaces ↔ record ∈ active := by
  have hlisted : StoreStep Metadata.workspaces db (.ok active) db := hactive ▸ s.rows
  have hinspected : StoreStep (inspectSnapshot json) db (.ok snapshot) db :=
    hsnapshot ▸ s.snapshot expected
  obtain ⟨hto, hof⟩ := Fallible.mem_mapM_ok hlisted.listed
  obtain ⟨hto', hof'⟩ := Fallible.mem_mapM_ok hinspected.inspected
  constructor
  · intro h
    obtain ⟨row, hrow, hrecord⟩ := hof' record h
    rw [List.mem_mergeSort] at hrow
    obtain ⟨read, hread, he⟩ := hto row (List.mem_mergeSort.mpr hrow)
    rw [hrecord] at he
    exact Except.ok.inj he ▸ hread
  · intro h
    obtain ⟨row, hrow, hrecord⟩ := hof record h
    rw [List.mem_mergeSort] at hrow
    obtain ⟨read, hread, he⟩ := hto' row (List.mem_mergeSort.mpr hrow)
    rw [hrecord] at he
    exact Except.ok.inj he ▸ hread

/-! ### Fresh names do not matter

The plan does not depend on the names of the siblings: layout and capabilities are compared
without them. -/

/-- The layout does not depend on the names of the fresh siblings. -/
theorem phase1VolumeLayout_same {a b : MaterializationPathReport} (h : SameProbe a b)
    (backend : MaterializerKind) : phase1VolumeLayout a backend = phase1VolumeLayout b backend := by
  obtain ⟨_, _, ⟨⟩, ⟨⟩, _, _, _⟩ := a
  obtain ⟨_, _, ⟨⟩, ⟨⟩, _, _, _⟩ := b
  obtain ⟨⟨⟩, ⟨⟩, hstaging, htrash, ⟨⟩, ⟨⟩⟩ := h
  obtain ⟨-, -, -, ⟨⟩, ⟨⟩, -, -, -⟩ := hstaging
  obtain ⟨-, -, -, ⟨⟩, ⟨⟩, -, -, -⟩ := htrash
  rfl

/-- Two probes that differ only in fresh names have the same plan to clone, as far as a preview
shows it. -/
theorem forCowClone_same (request : CreateRequest)
    {a b : MaterializationPathReport} (h : SameProbe a b)
    {policy : FallbackPolicy} {plan : MaterializationPlan}
    (hplan : MaterializationPlan.forCowClone a policy = .ok plan) :
    ∃ plan', MaterializationPlan.forCowClone b policy = .ok plan' ∧
      previewOf request plan' = previewOf request plan := by
  unfold MaterializationPlan.forCowClone at hplan ⊢
  obtain ⟨_, hkind, hplan⟩ := Fallible.bind_ok hplan
  obtain ⟨⟨source, target⟩, hlayout, hplan⟩ := Fallible.bind_ok hplan
  obtain ⟨hsupported, hplan⟩ := Fallible.refuseIf_bind_ok hplan
  cases hplan
  rw [phase1VolumeLayout_same h, h.cowClone] at hlayout
  rw [h.cowClone] at hkind hsupported
  simp only [bind, Except.bind, hkind, hlayout, Fallible.refuseIf, if_neg hsupported]
  exact ⟨_, rfl, by rw [h.cowClone]; rfl⟩

/-- The same of the plan to copy in full.  Each of its conditions reads the candidates and the
volumes of the probe, which are the same in both. -/
theorem forFullCopyAfterPreflight_same (request : CreateRequest)
    {a b : MaterializationPathReport} (h : SameProbe a b)
    {policy : FallbackPolicy} {plan : MaterializationPlan}
    (hplan : MaterializationPlan.forFullCopyAfterPreflight a policy = .ok plan) :
    ∃ plan', MaterializationPlan.forFullCopyAfterPreflight b policy = .ok plan' ∧
      previewOf request plan' = previewOf request plan := by
  unfold MaterializationPlan.forFullCopyAfterPreflight at hplan ⊢
  obtain ⟨_, hpolicy, hplan⟩ := Fallible.bind_ok hplan
  obtain ⟨_, hkinds, hplan⟩ := Fallible.bind_ok hplan
  obtain ⟨⟨source, target⟩, hlayout, hplan⟩ := Fallible.bind_ok hplan
  obtain ⟨_, hsupported, hplan⟩ := Fallible.bind_ok hplan
  obtain ⟨heligible, hplan⟩ := Fallible.refuseIf_bind_ok hplan
  cases hplan
  rw [phase1VolumeLayout_same h, h.cowClone] at hlayout
  rw [h.cowClone] at heligible
  have hkinds' : requireCandidateKinds b = .ok () := by
    rw [← hkinds, requireCandidateKinds, requireCandidateKinds, h.cowClone, h.fullCopy]
  have hsupported' : requireFullCopySupported b = .ok () := by
    rw [← hsupported, requireFullCopySupported, requireFullCopySupported, h.fullCopy]
  simp only [bind, Except.bind, hpolicy, hkinds', hlayout, hsupported', Fallible.refuseIf,
    if_neg heligible]
  exact ⟨_, rfl, rfl⟩

/-- **The plan does not depend on the fresh names**, as far as a preview tells. -/
theorem selectPlan_same (request : CreateRequest)
    {a b : MaterializationPathReport} (h : SameProbe a b) {allow : Bool}
    {plan : MaterializationPlan} (hplan : selectPlan a allow = .ok plan) :
    ∃ plan', selectPlan b allow = .ok plan' ∧ previewOf request plan' = previewOf request plan := by
  unfold selectPlan at hplan ⊢
  dsimp only at hplan ⊢
  rw [← h.cowClone]
  by_cases hunsupported : a.cowClone.state = .unsupported ∧ allow = true
  · rw [if_pos hunsupported] at hplan ⊢
    obtain ⟨plan', hplan', hsame⟩ :=
      forFullCopyAfterPreflight_same request h (Fallible.mapError_ok hplan)
    exact ⟨plan', by rw [hplan']; rfl, hsame⟩
  · rw [if_neg hunsupported] at hplan ⊢
    obtain ⟨plan', hplan', hsame⟩ :=
      forCowClone_same request h (Fallible.mapError_ok hplan)
    exact ⟨plan', by rw [hplan']; rfl, hsame⟩

/-! ### From one use case to the other

The conditions carry over from one use case to the other, since snapshot and open store have
the same records. -/

/-- The paths to be probed can be formed for every request and every identifier. -/
theorem provisionalMaterializationPaths_ok (source target parent : AbsolutePath)
    (id : WorkspaceId) :
    ∃ probe, provisionalMaterializationPaths source target parent id = .ok probe := by
  have hstaging : stagingName id ∈ siblingNames id := by simp [siblingNames]
  have htrash : trashName id ∈ siblingNames id := by simp [siblingNames]
  unfold provisionalMaterializationPaths
  simp only [bind, Except.bind, derivedPath_single (normal_siblingName hstaging),
    derivedPath_single (normal_siblingName htrash)]
  exact ⟨_, rfl⟩

/-- The requirements carry over to another list with the same records and to another probe with the
same answers.  The two overlap checks go over fewer records, and everything else is answered by the
same probes. -/
theorem Cleared.moved {answer answer' : (c : PortCall) → c.Result}
    {active active' : List WorkspaceRecord} {identity : InstallationIdentity}
    {parent : AbsolutePath}
    {report report' : MaterializationPathReport}
    (h : Cleared answer request identity active parent report)
    (hanswer : ∀ path, answer (.inspectPath path) = answer' (.inspectPath path))
    (hactive : ∀ record, record ∈ active' → record ∈ active) (hreport : SameProbe report report') :
    Cleared answer' request identity active' parent report' where
  paths := by
    rw [requireNoActiveWorkspacePathOverlap_iff]
    exact fun record hrecord =>
      requireNoActiveWorkspacePathOverlap_iff.mp h.paths record (hactive record hrecord)
  source := hreport.source ▸ h.source
  below := h.below
  identities := by
    have hsame : ∀ c, (∃ path, c = .inspectPath path) → answer c = answer' c := by
      rintro c ⟨path, rfl⟩
      exact hanswer path
    rw [evaluate_requireNoIdentityOverlap_iff]
    intro record hrecord
    rw [← hreport.targetRoot,
      ← (only_requireNoIdentityOverlap fun path => ⟨path, rfl⟩).evaluate_congr hsame]
    exact evaluate_requireNoIdentityOverlap_iff.mp h.identities record (hactive record hrecord)
  missing := hreport.targetRoot ▸ h.missing
  control := by
    obtain ⟨control, hcontrol, hoverlap⟩ := h.control
    rw [hreport.source, hreport.targetRoot] at hoverlap
    exact ⟨control, hanswer _ ▸ hcontrol, hoverlap⟩

/-- A plan that is selected with one identifier is selected with any other, and shows the same
preview. -/
theorem Selected.redrawn (drawn' : WorkspaceId) {parent : AbsolutePath}
    {report : MaterializationPathReport} {plan : MaterializationPlan}
    (h : Selected (s.answerDrawing drawn) request parent report plan) :
    ∃ report' plan', Selected (s.answerDrawing drawn') request parent report' plan' ∧
      SameProbe report report' ∧ previewOf request plan' = previewOf request plan := by
  obtain ⟨probe, hprovisional, hreport, hplan⟩ := h
  obtain ⟨probe', hprovisional'⟩ :=
    provisionalMaterializationPaths_ok request.source request.target parent drawn'
  obtain ⟨report', hreport', hsame⟩ :=
    s.siblings _ _ _ _ _ _ _ _ hprovisional hprovisional' hreport
  obtain ⟨plan', hplan', hpreview⟩ := selectPlan_same request hsame hplan
  exact ⟨report', plan', ⟨probe', hprovisional', hreport', hplan'⟩, hsame, hpreview⟩

/-- What is required of the installation does not depend on the identifier that is drawn. -/
theorem Installed.redrawn {drawn' : WorkspaceId} {identity : InstallationIdentity}
    (h : Installed (s.answerDrawing drawn) request identity) :
    Installed (s.answerDrawing drawn') request identity :=
  ⟨h.config, h.apart, h.layout, h.marker⟩

/-! ### The plan behind the reservation

A creation probes twice, and its plan is made of the last probe before the reservation.
This is read off the history, so the statement is about the plan that was in fact used. -/

/-- The report of a joint probe that answered, if the event is one. -/
def Event.report : Event → Option MaterializationPathReport
  | ⟨.inspectMaterializationPaths _, .ok report⟩ => some report
  | _ => none

/-- The report of the last joint probe of a history that answered. -/
def lastReport (history : List Event) : Option MaterializationPathReport :=
  (history.filterMap Event.report).getLast?

/-- The calls other than a joint probe, which leave the last report as it is. -/
def PortCall.probesNoPlan : PortCall → Bool
  | .inspectMaterializationPaths _ => false
  | _ => true

/-- A joint probe that answers is the last one of the history it ends. -/
theorem lastReport_report {history : List Event} {probe : MaterializationPathProbeRequest}
    {report : MaterializationPathReport} :
    lastReport (history ++ [⟨.inspectMaterializationPaths probe, .ok report⟩]) = some report := by
  rw [lastReport, List.filterMap_append]
  exact List.getLast?_concat

/-- Another call does not change which probe was the last. -/
theorem lastReport_other {history : List Event} {c : PortCall} {r : c.Result}
    (h : c.probesNoPlan = true) : lastReport (history ++ [⟨c, r⟩]) = lastReport history := by
  have hnone : Event.report ⟨c, r⟩ = none := by
    cases c <;> first | rfl | cases h
  rw [lastReport, List.filterMap_append, List.filterMap_cons_none hnone, List.filterMap_nil,
    List.append_nil]
  rfl

variable {α : Type} {x : UseCase α}

/-- A part without a joint probe leaves the last report as it is. -/
theorem unprobed_part (hx : Only (fun c => c.probesNoPlan = true) x) :
    Program.Safe (s.environment installation drawn) (fun _ _ => True)
      (fun _ w' => lastReport w'.history = lastReport w.history) x w :=
  hx.safe (R := fun (w w' : World) => lastReport w'.history = lastReport w.history) (fun _ => rfl)
    (fun _ _ _ h₁ h₂ => h₂.trans h₁) (fun _ _ _ => trivial) fun _ _ _ _ hc step =>
      (congrArg lastReport step.1).trans (lastReport_other hc)

/-- The plan selected from the last joint probe, and the reservation made under it. -/
def PlannedLast (s : Surroundings json db) (drawn : WorkspaceId) (request : CreateRequest)
    (identity : InstallationIdentity) (reservation : WorkspaceReservation) (w : World) : Prop :=
  ∃ parent report plan, targetParent request.target = .ok parent ∧
    Selected (s.answerDrawing drawn) request parent report plan ∧
    lastReport w.history = some report ∧
    reservation = reservationOf request identity drawn plan

/-- The observations of a creation end with a plan selected from their last joint probe.  Only the
steps behind the probe of the two paths matter: the plan is selected from its answer, and nothing
is probed after it. -/
theorem observe_planned {identity : InstallationIdentity} {active : List WorkspaceRecord} :
    Program.Safe (s.environment installation drawn) (fun _ _ => True)
      (fun outcome w' => ∀ reservation, outcome = .ok reservation →
        PlannedLast s drawn request identity reservation w')
      (observe request identity active) w := by
  refine safe_check_bind (fun _ _ => ?_) fun _ _ => nofun
  refine Program.Safe.bind (x := port _ _) Program.safe_true (fun _ w₁ _ => ?_) fun _ _ _ => nofun
  refine safe_check_bind (fun _ _ => ?_) fun _ _ => nofun
  refine Program.Safe.bind (x := port _ _) Program.safe_true (fun _ w₂ _ => ?_) fun _ _ _ => nofun
  refine Program.Safe.bind (x := unlessFail _ _) Program.safe_true (fun _ w₃ _ => ?_)
    fun _ _ _ => nofun
  refine safe_check_bind (fun parent hparent => ?_) fun _ _ => nofun
  refine ⟨trivial, fun workspaceId w₄ h₄ => ?_⟩
  obtain rfl := Surroundings.known rfl h₄
  refine safe_check_bind (fun probe hprobe => ?_) fun _ _ => nofun
  refine ⟨trivial, fun answered w₅ h₅ => ?_⟩
  have hanswer := Surroundings.known rfl h₅
  rcases answered with e | report
  · nofun
  have hlast : lastReport w₅.history = some report := by
    rw [h₅.1]
    exact lastReport_report
  refine safe_check_bind (fun _ _ => ?_) fun _ _ => nofun
  refine Program.Safe.bind (x := requireNoIdentityOverlap _ _)
    (unprobed_part (only_requireNoIdentityOverlap fun _ => rfl)) (fun _ w₆ h₆ => ?_)
    fun _ _ _ => nofun
  refine safe_check_bind (fun _ _ => ?_) fun _ _ => nofun
  refine Program.Safe.bind (x := unlessFail _ _) (unprobed_part only_unlessFail)
    (fun _ w₇ h₇ => ?_) fun _ _ _ => nofun
  refine safe_check_bind (fun plan hplan => ?_) fun _ _ => nofun
  intro reservation h
  obtain rfl := Except.ok.inj h
  exact ⟨parent, report, plan, hparent, ⟨probe, hprobe, hanswer.symm, hplan⟩,
    h₇.trans (h₆.trans hlast), rfl⟩

/-- So does the planning as a whole: what follows the observations probes nothing more.  The steps
before the observations are of no concern here, and a name that is taken leads to no reservation.
-/
theorem planCreation_planned :
    Program.Safe (s.environment installation drawn) (fun _ _ => True)
      (fun outcome w' => ∀ identity reservation, outcome = .ok (.inr (identity, reservation)) →
        PlannedLast s drawn request identity reservation w')
      (planCreation request materializers) w := by
  refine Program.Safe.bind (x := unlessFail _ _) Program.safe_true (fun _ w₁ _ => ?_)
    fun _ _ _ => nofun
  refine Program.Safe.bind (x := readIdentity) Program.safe_true (fun identity w₂ _ => ?_)
    fun _ _ _ => nofun
  refine Program.Safe.bind (x := unlessFail _ _) Program.safe_true (fun _ w₃ _ => ?_)
    fun _ _ _ => nofun
  refine Program.Safe.bind (x := openMetadata _ _) Program.safe_true (fun _ w₄ _ => ?_)
    fun _ _ _ => nofun
  refine Program.Safe.bind (x := port _ _) Program.safe_true (fun active w₅ _ => ?_)
    fun _ _ _ => nofun
  cases findByName request.name active with
  | some existing =>
    refine Program.Safe.bind (x := createExisting _ _) Program.safe_true (fun _ w₆ _ => ?_)
      fun _ _ _ => nofun
    exact fun _ _ => nofun
  | none =>
    refine Program.Safe.bind (x := observe _ _ _) observe_planned (fun reserved w₆ h₆ => ?_)
      fun _ _ _ => nofun
    intro found reservation h
    obtain ⟨rfl, rfl⟩ := Prod.mk.inj (Sum.inr.inj (Except.ok.inj h))
    exact h₆ _ rfl

/-- A creation makes its reservation from where the planning ended, with the reservation that the
planning returned.  Planning only observes, so the reservation is the first call behind it. -/
theorem issues_reserve {reservation : WorkspaceReservation}
    (run : Issues (s.environment installation drawn) (createImpl request materializers) w
      (.reserveWorkspace reservation) w') :
    ∃ identity, Returns (s.environment installation drawn) (planCreation request materializers) w
      (.ok (.inr (identity, reservation))) w' := by
  rw [createImpl_eq] at run
  have hmutates : ¬(PortCall.reserveWorkspace reservation).observes = true := nofun
  obtain ⟨planned, w₁, hplanned, run⟩ := only_planCreation.issues_bind hmutates run
  rcases planned with outcome | ⟨identity, planned⟩
  · cases run
  · generalize hop : PortCall.reserveWorkspace reservation = op at run
    cases run with
    | here =>
      cases hop
      exact ⟨identity, hplanned⟩
    | @later _ _ _ _ _ _ result step rest =>
      subst hop
      rcases result with e | record
      · cases rest
      · have hrest : Only (fun c => c.isReserve = false) (do
            let result ← ((createReserved request materializers identity.dataRoot
              planned).mapError fun error => error.withWorkspaceId planned.workspaceId).attempt
            recordOutcome request planned.workspaceId result) :=
          Only.bind only_createReserved.mapError.attempt fun _ => only_recordOutcome
        exact absurd rest (hrest.not_issues nofun)

/-! ### The comparison

The comparison in both directions, as one statement about every request whose name is free.
-/

/-- The metadata can be read through both open modes: by the dry run without a lock, by the
creation with it. -/
def Surroundings.Readable (s : Surroundings json db) (now : UnixMillis) : Prop :=
  ∀ identity, s.answer .readConfig = .ok (some identity) →
    s.answer (.openExisting ⟨identity, now⟩) = .ok () ∧
    (∃ active, s.answer .workspaces = .ok active) ∧
    ∃ snapshot, s.answer (.inspectMetadata ⟨identity, now⟩) = .ok snapshot

/-- No active row has the name, as the creation requires before it plans. -/
def Surroundings.Unnamed (s : Surroundings json db) (name : WorkspaceName) : Prop :=
  ∀ active, s.answer .workspaces = .ok active → ∀ record ∈ active, record.reservation.name ≠ name

/-- A name that no active row has is not found among the rows. -/
theorem Surroundings.Unnamed.findByName {name : WorkspaceName} (h : s.Unnamed name)
    {active : List WorkspaceRecord} (hactive : s.answer .workspaces = .ok active) :
    findByName name active = none := by
  rw [Application.findByName, List.find?_eq_none]
  intro record hrecord
  simpa using h active hactive record hrecord

/-- The requirements of a dry run that succeeds are those of a creation. -/
theorem plans_of_previews (drawn' : WorkspaceId) (hmaterializers : materializers.available = true)
    (hname : s.Unnamed request.name) (hreadable : s.Readable request.now) {preview : CreatePreview}
    (h : evaluate (s.answerDrawing drawn) (previewCreate request) = .ok preview) :
    ∃ identity reservation, evaluate (s.answerDrawing drawn') (planCreation request materializers) =
      .ok (.inr (identity, reservation)) := by
  obtain ⟨identity, snapshot, parent, report, plan, hsnapshot, hkept, hinstalled, hcleared,
    hselected, -⟩ := (evaluate_previewCreate_ok s.probeDrawing).mp h
  obtain ⟨hopened, ⟨active, hactive⟩, -⟩ := hreadable identity hinstalled.config
  obtain ⟨report', plan', hselected', hsame, -⟩ := hselected.redrawn drawn'
  refine ⟨identity, reservationOf request identity drawn' plan',
    (evaluate_planCreation_ok s.probeDrawing hmaterializers s.lock s.lockKept
      (fun _ h => hname.findByName h)).mpr ⟨active, parent, report', plan', hopened, hactive,
        hinstalled.redrawn, hcleared.moved (fun _ => rfl) (fun record hrecord => ?_) hsame,
        hselected', rfl⟩⟩
  exact (Surroundings.mem_snapshot hsnapshot hactive record).mpr hrecord

/-- The requirements of a creation that gets to its reservation are those of a dry run. -/
theorem previews_of_plans {drawn : WorkspaceId} (drawn' : WorkspaceId)
    (hmaterializers : materializers.available = true) (hname : s.Unnamed request.name)
    (hreadable : s.Readable request.now) {identity : InstallationIdentity}
    {reservation : WorkspaceReservation}
    (h : evaluate (s.answerDrawing drawn) (planCreation request materializers) =
      .ok (.inr (identity, reservation))) :
    ∃ preview, evaluate (s.answerDrawing drawn') (previewCreate request) = .ok preview := by
  obtain ⟨active, parent, report, plan, hopened, hactive, hinstalled, hcleared, hselected, -⟩ :=
    (evaluate_planCreation_ok s.probeDrawing hmaterializers s.lock s.lockKept
      fun _ h => hname.findByName h).mp h
  obtain ⟨-, -, snapshot, hsnapshot⟩ := hreadable identity hinstalled.config
  obtain ⟨report', plan', hselected', hsame, -⟩ := hselected.redrawn drawn'
  refine ⟨previewOf request plan', (evaluate_previewCreate_ok s.probeDrawing).mpr
    ⟨identity, snapshot, parent, report', plan', hsnapshot, s.layoutKept _ _ hsnapshot,
      hinstalled.redrawn, hcleared.moved (fun _ => rfl) (fun record hrecord => ?_) hsame,
      hselected', rfl⟩⟩
  exact (Surroundings.mem_snapshot hsnapshot hactive record).mp hrecord

/-- The dry run of a request and its creation, in worlds with the same answers. -/
structure DryRunAgrees (s : Surroundings json db) (installation : InstallationRecord)
    (request : CreateRequest) (materializers : Materializers) (drawn drawn' : WorkspaceId)
    (w₀ w₀' : World) : Prop where
  /-- The dry run ends. -/
  ends : ∃ outcome w,
    Returns (s.environment installation drawn) (previewCreate request) w₀ outcome w
  /-- It succeeds exactly if the creation gets to its reservation. -/
  succeeds_iff : ∀ outcome w,
    Returns (s.environment installation drawn) (previewCreate request) w₀ outcome w →
      ((∃ preview, outcome = .ok preview) ↔ ∃ reservation w',
        Issues (s.environment installation drawn') (createImpl request materializers) w₀'
          (.reserveWorkspace reservation) w')
  /-- It reports what the plan selected from the last probe before the reservation has. -/
  reports : ∀ preview w reservation w',
    Returns (s.environment installation drawn) (previewCreate request) w₀ (.ok preview) w →
    Issues (s.environment installation drawn') (createImpl request materializers) w₀'
      (.reserveWorkspace reservation) w' →
    ∃ report plan, lastReport w'.history = some report ∧
      selectPlan report request.allowFullCopy = .ok plan ∧
      preview.effectiveMode = plan.effectiveMode ∧
      preview.selectedAdapter = plan.selectedAdapter ∧
      preview.fallbackReason = plan.fallbackReason ∧
      (preview.sourceVolumeId, preview.targetVolumeId) =
        (plan.sourceVolumeId, plan.targetVolumeId) ∧
      (reservation.sourceVolumeId, reservation.targetVolumeId) =
        (plan.sourceVolumeId, plan.targetVolumeId)
  /-- In any world it only observes, and leaves the database as it is. -/
  observes : Only (fun c => c.observes = true) (previewCreate request) ∧
    ∀ w w', Program.Visits (portEnvironment json installation) (previewCreate request) w w' →
      w'.db = w.db

/-- **The dry run tells the truth.**  In every state that stays as it is, for every
request whose name is free, materializers of the expected kinds and metadata that can
be read both ways, whatever fresh identifiers the two runs draw. -/
theorem dry_run_agrees (s : Surroundings json db) (installation : InstallationRecord)
    (request : CreateRequest) (materializers : Materializers) (drawn drawn' : WorkspaceId)
    (history history' : List Event) (hmaterializers : materializers.available = true)
    (hname : s.Unnamed request.name) (hreadable : s.Readable request.now) :
    DryRunAgrees s installation request materializers drawn drawn' ⟨db, history⟩
      ⟨db, history'⟩ where
  ends := ⟨_, only_previewCreate.exists_returns (fun _ _ => Surroundings.live) _⟩
  succeeds_iff := by
    intro outcome w run
    have houtcome := only_previewCreate.evaluate_of_returns
      (fun _ _ _ _ => Surroundings.known) run
    constructor
    · rintro ⟨preview, rfl⟩
      obtain ⟨identity, reservation, h⟩ := plans_of_previews drawn' hmaterializers hname hreadable
        houtcome.symm
      have hobserves : Only (fun c => c.observes = true) (planCreation request materializers) :=
        only_planCreation
      obtain ⟨w', hplanned⟩ := hobserves.exists_returns
        (fun _ _ => @Surroundings.live _ _ s installation drawn' _ _) ⟨db, history'⟩
      rw [h] at hplanned
      refine ⟨reservation, w', ?_⟩
      rw [createImpl_eq]
      exact hplanned.issues_bind .here
    · rintro ⟨reservation, w', hissues⟩
      obtain ⟨identity, hplanned⟩ := issues_reserve hissues
      have h := only_planCreation.evaluate_of_returns (fun _ _ _ _ => Surroundings.known) hplanned
      obtain ⟨preview, hpreview⟩ := previews_of_plans drawn hmaterializers hname hreadable
        h.symm
      exact ⟨preview, houtcome.trans hpreview⟩
  reports := by
    intro preview w reservation w' run hissues
    have houtcome := only_previewCreate.evaluate_of_returns
      (fun _ _ _ _ => Surroundings.known) run
    obtain ⟨identity, snapshot, parent, report, plan, -, -, -, hcleared, hselected, rfl⟩ :=
      (evaluate_previewCreate_ok s.probeDrawing).mp houtcome.symm
    obtain ⟨found, hplanned⟩ := issues_reserve hissues
    obtain ⟨parent', report', plan', hparent, ⟨probe', hprovisional, hreport, hplan⟩, hlast, rfl⟩ :=
      planCreation_planned.of_returns hplanned found reservation rfl
    obtain rfl := Except.ok.inj (hcleared.below.symm.trans hparent)
    obtain ⟨probe, hprovisional₀, hreport₀, hplan₀⟩ := hselected
    obtain ⟨report₁, hreport₁, hsame⟩ :=
      s.siblings _ _ _ _ _ _ _ _ hprovisional₀ hprovisional hreport₀
    obtain rfl := Except.ok.inj (hreport₁.symm.trans hreport)
    obtain ⟨plan₁, hplan₁, hpreview⟩ := selectPlan_same request hsame hplan₀
    obtain rfl := Except.ok.inj (hplan₁.symm.trans hplan)
    rw [← hpreview]
    exact ⟨_, _, hlast, hplan, rfl, rfl, rfl, rfl, rfl⟩
  observes := by
    refine ⟨only_previewCreate, fun w w' run => ?_⟩
    have hsafe : Program.Safe (portEnvironment json installation) (fun c _ => c.observes = true)
        (fun _ _ => True) (previewCreate request) w :=
      (only_previewCreate.safe (R := fun _ _ => True) (fun _ => trivial) (fun _ _ _ _ _ => trivial)
        (fun _ _ h => h) fun _ _ _ _ _ _ => trivial).mono fun _ _ _ => trivial
    exact hsafe.of_visits (fun v => v.db = w.db) rfl
      (fun _ c _ _ hc hdb step => (step_reading (not_writesStore_of_observes c hc) step).trans hdb)
      run

/-! ### A small state

An installation without a workspace, whose answers are computed: the dry run succeeds and a
creation under another identifier agrees with it. -/

/-- What a probe answers for a path: the source and the control root exist. -/
def samplePathReport (path : AbsolutePath) : PathCapabilityReport :=
  if path = sampleReservation.sourcePath then sampleDirectory path 2
  else if path = sampleInstallation.identity.dataRoot then sampleDirectory path 3
  else sampleMissing path

/-- The joint probe, with missing siblings: an existing source, a missing target in an existing
parent. -/
def samplePathsReport (probe : MaterializationPathProbeRequest) : MaterializationPathReport :=
  { sampleProbe (samplePathReport probe.targetRoot) (sampleMissing probe.staging)
      (sampleMissing probe.trash) with
    source := samplePathReport probe.source }

/-- What each call answers in an installation without a workspace, where the calls that write are
never made. -/
def sampleAnswer : (c : PortCall) → c.Result
  | .readConfig => .ok (some sampleInstallation.identity)
  | .readRootMarker _ => .ok (some ⟨sampleInstallation.identity, .ready⟩)
  | .validateLayout _ | .acquireDataRoot _ | .lockRevalidate | .layoutRevalidate
  | .openExisting _ | .preparedRevalidate _ | .clearWorkspaceIncomplete _ => .ok ()
  | .inspectMetadata _ => .ok ⟨[], []⟩
  | .workspaces => .ok []
  | .inspectPath path => .ok (samplePathReport path)
  | .inspectMaterializationPaths probe => .ok (samplePathsReport probe)
  | .workspace _ | .deletionTombstone _ | .finalMaterialization _
  | .inspectRemovalContainer _ => .ok none
  | .reserveWorkspace _ | .completeMaterialization _ _ _ _ | .recordFailure _ _ _ _
  | .beginRemoval _ _ _ _ | .completeDeletion _ _ _ | .prepareWorkspace _ _
  | .validateReadyWorkspace _ | .measureReadyWorkspaceSpace _ | .appendRemovalLog _
  | .removeWorkspace _ | .processInspect _ => .error (.new .unavailable "")
  | .cloneMaterialize _ _ | .copyMaterialize _ _ =>
    .error ⟨.new .unavailable "", sampleReceipt⟩
  | .gitInspect _ => .new .complete [] []
  | .newOperationId => ⟨sampleUuid 4⟩
  | .newWorkspaceId => sampleReservation.workspaceId

/-- The paths that are probed for a request contain the requested target. -/
theorem provisionalMaterializationPaths_target {source target parent : AbsolutePath}
    {id : WorkspaceId} {probe : MaterializationPathProbeRequest}
    (h : provisionalMaterializationPaths source target parent id = .ok probe) :
    probe.targetRoot = target := by
  unfold provisionalMaterializationPaths at h
  obtain ⟨_, _, h⟩ := Fallible.bind_ok h
  obtain ⟨_, _, h⟩ := Fallible.bind_ok h
  exact (congrArg (·.targetRoot) (Except.ok.inj h)).symm

/-- The snapshot of a new installation is empty.  The tables are empty, so the sorted rows and the
summaries are. -/
theorem initialized_inspectSnapshot :
    StoreStep (inspectSnapshot sampleLibrary) (.initialized sampleInstallation) (.ok ⟨[], []⟩)
      (.initialized sampleInstallation) := by
  have hlist : inspectSnapshot sampleLibrary ⟨.initialized sampleInstallation, []⟩ =
      .ok ⟨[], []⟩ ⟨.initialized sampleInstallation, []⟩ := by
    have hread : Metadata.readWorkspacesByWorkspaceId ⟨.initialized sampleInstallation, []⟩ =
        .ok [] ⟨.initialized sampleInstallation, []⟩ := by
      rw [Metadata.readWorkspacesByWorkspaceId, Metadata.run_bind Metadata.run_query]
      change Session.ofExcept ((List.mergeSort [] _).mapM Metadata.WorkspaceRow.intoRecord) _ = _
      rw [List.mergeSort_nil]
      rfl
    have hinspect : Metadata.inspect sampleLibrary ⟨.initialized sampleInstallation, []⟩ =
        .ok ([], []) ⟨.initialized sampleInstallation, []⟩ := by
      refine Metadata.run_transaction ?_
      rw [Metadata.run_bind hread]
      rfl
    rw [inspectSnapshot, Metadata.run_bind hinspect]
    rfl
  exact @StoreStep.returned _ _ _ [] _ ⟨.initialized sampleInstallation, []⟩ hlist

/-- Two joint probes of the sample that differ only in the operation directories are the same. -/
theorem samplePaths_same {probe probe' : MaterializationPathProbeRequest}
    (hsource : probe.source = probe'.source) (htarget : probe.targetRoot = probe'.targetRoot) :
    SameProbe (samplePathsReport probe) (samplePathsReport probe') := by
  unfold samplePathsReport
  rw [hsource, htarget]
  constructor
  all_goals first | rfl | constructor <;> rfl

/-- The state of that installation, which both a preview and a creation find. -/
def sampleSurroundings : Surroundings sampleLibrary (.initialized sampleInstallation) where
  answer := sampleAnswer
  lock _ := rfl
  lockKept := rfl
  rows := initialized_workspaces
  snapshot _ := initialized_inspectSnapshot
  layoutKept _ _ _ := rfl
  probe _ _ h := by
    obtain rfl := Except.ok.inj h
    rfl
  siblings _ _ _ _ _ _ probe' _ hprobe hprobe' h := by
    obtain rfl := Except.ok.inj h
    refine ⟨samplePathsReport probe', rfl, samplePaths_same ?_ ?_⟩
    · rw [provisionalMaterializationPaths_source hprobe,
        provisionalMaterializationPaths_source hprobe']
    · rw [provisionalMaterializationPaths_target hprobe,
        provisionalMaterializationPaths_target hprobe']

/-- A probe of the sample paths, with nothing in the way. -/
def samplePlain : MaterializationPathProbeRequest :=
  ⟨sampleCreate.source, sampleCreate.target, sampleRoot.path, sampleRoot.path⟩

/-- The sample request passes every check of the sample installation. -/
theorem sampleCleared : Cleared sampleAnswer sampleCreate sampleInstallation.identity []
    sampleRoot.path (samplePathsReport samplePlain) where
  paths := rfl
  source := by decide +kernel
  below := by decide +kernel
  identities := by decide +kernel
  missing := by decide +kernel
  control := ⟨samplePathReport sampleInstallation.identity.dataRoot, rfl, by decide +kernel⟩

/-- A plan is selected for the sample request. -/
theorem sampleSelected : ∃ plan,
    selectPlan (samplePathsReport samplePlain) sampleCreate.allowFullCopy = .ok plan :=
  ⟨_, rfl⟩

/-- The dry run of the sample creation succeeds. -/
theorem sample_previews (drawn : WorkspaceId) : ∃ preview,
    evaluate (sampleSurroundings.answerDrawing drawn) (previewCreate sampleCreate) =
      .ok preview := by
  obtain ⟨probe, hprobe⟩ := provisionalMaterializationPaths_ok sampleCreate.source
    sampleCreate.target sampleRoot.path drawn
  have hsame : SameProbe (samplePathsReport samplePlain) (samplePathsReport probe) :=
    samplePaths_same (provisionalMaterializationPaths_source hprobe).symm
      (provisionalMaterializationPaths_target hprobe).symm
  obtain ⟨plan, hplan⟩ := sampleSelected
  obtain ⟨plan', hplan', -⟩ := selectPlan_same sampleCreate hsame hplan
  exact ⟨_, (evaluate_previewCreate_ok sampleSurroundings.probeDrawing).mpr
    ⟨sampleInstallation.identity, ⟨[], []⟩, sampleRoot.path, samplePathsReport probe, plan', rfl,
      rfl, ⟨rfl, by decide +kernel, rfl, rfl⟩,
      sampleCleared.moved (fun _ => rfl) (fun _ h => h) hsame,
      ⟨probe, hprobe, rfl, hplan'⟩, rfl⟩⟩
/-- A dry run that succeeds, beside a creation that draws another identifier: the two agree as the
theorem says.  Neither list of active rows has a record, so nothing has to be said of the two
identifiers. -/
theorem dry_run_agrees_sample :
    (∃ preview w, Returns (sampleSurroundings.environment sampleInstallation ⟨sampleUuid 5⟩)
      (previewCreate sampleCreate) ⟨.initialized sampleInstallation, []⟩ (.ok preview) w) ∧
    DryRunAgrees sampleSurroundings sampleInstallation sampleCreate sampleMaterializers
      ⟨sampleUuid 5⟩ sampleReservation.workspaceId ⟨.initialized sampleInstallation, []⟩
      ⟨.initialized sampleInstallation, []⟩ := by
  constructor
  · obtain ⟨preview, hpreview⟩ := sample_previews ⟨sampleUuid 5⟩
    have hobserves : Only (fun c => c.observes = true) (previewCreate sampleCreate) :=
      only_previewCreate
    obtain ⟨w, run⟩ := hobserves.exists_returns
      (fun _ _ => @Surroundings.live _ _ sampleSurroundings sampleInstallation ⟨sampleUuid 5⟩ _ _)
      ⟨.initialized sampleInstallation, []⟩
    exact ⟨preview, w, hpreview ▸ run⟩
  · refine dry_run_agrees _ _ _ _ _ _ [] [] rfl (fun active h => ?_) fun identity h => ?_
    · obtain rfl := Except.ok.inj h
      exact fun _ h => absurd h List.not_mem_nil
    · exact ⟨rfl, ⟨[], rfl⟩, ⟨[], []⟩, rfl⟩

end Application
end ThinWorkspace
