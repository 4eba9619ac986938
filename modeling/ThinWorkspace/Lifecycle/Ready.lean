/-
# A workspace that is ready

Source: `validate_ready_workspace` in `crates/thinws-adapter-linux/src/workspace.rs`.

The check takes no lock and changes nothing.  It accepts a workspace exactly where the target and
its ownership are what they were when they were created, nothing is left of the creation, and no
removal has begun (`validateReadyWorkspace_exact`).
-/

import ThinWorkspace.Lifecycle.Installation

namespace ThinWorkspace
namespace Lifecycle

open ThinWorkspace.Core Lib Ports
open Linux (WorkspaceOwnership OperationDirectoryOwnership pathParent)
open Program (Returns Safe Visits)

/-! ### The program

The check reads the ownership, opens the parent and the target, and requires that both
operation directories are gone and that no isolation is registered.  At its end it reads the
ownership again. -/

section Programs

variable (toml : TomlLibrary)

/-- What `validate_ready_workspace` requires to be there: any entry of this name. -/
def requirePresentChild (name : List UInt8) : Handling Unit := do
  match ← call (.statat name) with
  | .error .noent => throw (.new .notFound "registered Ready target is missing")
  | .error _ => throw (.new .io "inspect registered Ready target")
  | .ok _ => pure ()

/-- The round over the operation directories in `validate_ready_workspace`. -/
def requireCleared (parent : TargetDirectory) (operation : OperationDirectoryOwnership) :
    Handling Unit := do
  let name ← orMissing (.new .invalidLayout "operation path has no name")
    (Prepared.fileName operation.path.asBytes)
  requireMissingChild parent name

/-- `validate_ready_workspace`: the target is the registered one and nothing of its creation or
removal lies beside it. -/
def validateReadyWorkspace (layout : Layout) (reservation : WorkspaceReservation) :
    Handling AbsolutePath := do
  callOr .layout fun e => e
  let ownership ← readWorkspaceOwnership toml reservation.workspaceId
  ensure (Registers layout reservation ownership ∧ ownership.isolatedPath.isSome = false)
    (.new .invalidLayout "Workspace registration and ownership proof differ")
  let parentPath ← orMissing (.new .invalidLayout "registered target has no parent")
    (pathParent reservation.targetPath)
  let parent ← openTargetDirectory parentPath
  ensure (parent.identity = ownership.parent)
    (.new .invalidLayout "registered Workspace parent identity changed")
  requireBtrfsMount parent ownership.volumeId ownership.mountId
  let targetName ← orMissing (.new .invalidLayout "registered target has no name")
    (Prepared.fileName reservation.targetPath.asBytes)
  requirePresentChild targetName
  let root ← openTargetDirectory reservation.targetPath.asBytes
  ensure (root.identity = ownership.target)
    (.new .invalidLayout "registered Workspace target identity changed")
  requireBtrfsMount root ownership.volumeId ownership.mountId
  [ownership.staging, ownership.trash].forM (requireCleared parent)
  let again ← readWorkspaceOwnership toml reservation.workspaceId
  ensure (again = ownership)
    (.new .invalidLayout "Ready ownership proof changed during validation")
  root.revalidate
  callOr .layout fun e => e
  pure reservation.targetPath

end Programs

variable {κ : Type} {euid : UInt32} {toml : TomlLibrary} {site : Site κ} {leaf : FileName}
  {layout : Layout} {reservation : WorkspaceReservation} {w : World κ} {calm : Bool}

/-! ### What is ready

`Ready` states what the check is for, on the world alone.  Where the check passes the world
is ready, and in a quiet world a ready one passes. -/

/-- A workspace is ready: the ownership is that of the registration, without the path of an
isolation, and it describes the parent and the target; no operation directory is left. -/
structure Ready (toml : TomlLibrary) (site : Site κ) (leaf : FileName) (layout : Layout)
    (reservation : WorkspaceReservation) (w : World κ) (ownership : WorkspaceOwnership) :
    Prop where
  documented : Documented toml w reservation.workspaceId ownership
  registers : Registers layout reservation ownership
  unregistered : ownership.isolatedPath = none
  parent : ownership.parent = site.identity
  target : Holds w leaf ownership.target
  cleared : Cleared reservation.workspaceId w

/-- The ownership names the volume and the mount of the site. -/
def Mounted (site : Site κ) (ownership : WorkspaceOwnership) : Prop :=
  ownership.volumeId = site.volumeId ∧ ownership.mountId = site.mountId

/-- The check that a name is taken finds nothing else; in a quiet world it passes where it is.  The
one call looks the name up without following it, and in a quiet world it fails only where nothing
is there. -/
theorem finds_requirePresentChild {name : List UInt8}
    (hcalm : calm = true → w.children name ≠ none) :
    Finds euid site calm (fun _ => True) (requirePresentChild name) w := by
  refine Program.safe_perform_bind.mpr ⟨trivial, fun r w' hstep => ?_⟩
  obtain rfl := step_reads euid site (c := .statat name) trivial hstep
  cases r with
  | ok stat => exact finds_pure trivial
  | error e =>
    cases e with
    | noent => exact finds_throw fun h => hcalm h hstep.1
    | exist | other =>
      refine finds_throw fun h => ?_
      have happarent := (hstep.2.2 h).2.2
      cases happarent

/-- The check that an operation directory is gone finds its name free. -/
theorem finds_requireCleared {parent : TargetDirectory} {operation : OperationDirectoryOwnership}
    {name : FileName} (hheld : Held site parent) (hpath : operation.path = site.path name)
    (hcalm : calm = true → w.children name.bytes = none) :
    Finds euid site calm (fun _ => w.children name.bytes = none) (requireCleared parent operation)
      w := by
  unfold requireCleared
  rw [hpath]
  refine Finds.bind finds_fileName fun found hfound => ?_
  subst hfound
  exact finds_requireMissingChild hheld.path hheld.at hcalm

/-- Where both checks pass the workspace is cleared. -/
theorem finds_cleared {parent : TargetDirectory} {ownership : WorkspaceOwnership}
    {id : WorkspaceId} (hheld : Held site parent)
    (hpaths : ∀ kind : OperationKind, (kind.evidence ownership).path = site.path (kind.name id))
    (hcalm : calm = true → Cleared id w) :
    Finds euid site calm (fun _ => Cleared id w)
      ([ownership.staging, ownership.trash].forM (requireCleared parent)) w := by
  refine Finds.bind (finds_requireCleared hheld (hpaths .staging) fun h => hcalm h .staging)
    fun _ hstaging => ?_
  refine Finds.bind (finds_requireCleared hheld (hpaths .trash) fun h => hcalm h .trash)
    fun _ htrash => finds_pure fun kind => ?_
  cases kind
  · exact hstaging
  · exact htrash

/-- `validate_ready_workspace` finds the workspace ready, and returns its target path; in a quiet
world it accepts a ready one.  The checks are followed in the order of the source, and each of them
finds the part of the readiness that it asks for; in a quiet world every part is there, so none of
them fails. -/
theorem finds_validateReadyWorkspace (htarget : reservation.targetPath = site.path leaf)
    (hcalm : calm = true → ∃ ownership,
      Ready toml site leaf layout reservation w ownership ∧ Mounted site ownership) :
    Finds euid site calm (fun path => path = reservation.targetPath ∧ ∃ ownership,
      Ready toml site leaf layout reservation w ownership ∧
        (calm = true → Mounted site ownership))
      (validateReadyWorkspace toml layout reservation) w := by
  have hready : ∀ ownership, Documented toml w reservation.workspaceId ownership →
      calm = true → Ready toml site leaf layout reservation w ownership ∧
        Mounted site ownership := by
    intro ownership hdocumented h
    obtain ⟨other, hother, hmounted⟩ := hcalm h
    obtain rfl := hdocumented.unique hother.documented
    exact ⟨hother, hmounted⟩
  have hparent : pathParent reservation.targetPath = some site.parent.asBytes := by
    rw [htarget, Linux.pathParent_eq (site.path_ne_root leaf)]
    exact congrArg (some ∘ AbsolutePath.asBytes) (site.parent_path leaf)
  unfold validateReadyWorkspace
  rw [hparent, htarget]
  refine Finds.bind (finds_callOr trivial fun _ => ⟨(), w, rfl, trivial⟩) fun _ _ => ?_
  refine Finds.bind (finds_readWorkspaceOwnership fun h => (hcalm h).imp fun _ ho =>
    ho.1.documented) fun ownership hdocumented => ?_
  refine Finds.bind (finds_ensure fun h => ?_) fun _ hregistered => ?_
  · obtain ⟨hmine, -⟩ := hready ownership hdocumented h
    exact ⟨hmine.registers, by rw [hmine.unregistered]; rfl⟩
  obtain ⟨hregisters, hisSome⟩ := hregistered
  have hunregistered : ownership.isolatedPath = none := by
    rwa [← Bool.not_eq_true, Option.not_isSome_iff_eq_none] at hisSome
  have hpaths : ∀ kind : OperationKind, (kind.evidence ownership).path =
      site.path (kind.name reservation.workspaceId) := fun kind =>
    evidence_path hdocumented.valid (hregisters.2.2.1.trans htarget) hdocumented.1 kind
  refine Finds.bind (finds_orMissing fun _ => Option.some_ne_none _) fun parentPath hpath => ?_
  obtain rfl := Option.some.inj hpath
  refine Finds.bind (finds_openTargetDirectory fun _ => ⟨_, _, .parent⟩) fun parent hopened => ?_
  obtain ⟨hidentity, hdevice⟩ := Site.at_parent.mp hopened.2
  have hheld : Held site parent := ⟨hopened.1, hidentity, hdevice⟩
  refine Finds.bind (finds_ensure fun h => ?_) fun _ hsame => ?_
  · rw [hidentity, (hready ownership hdocumented h).1.parent]
  refine Finds.bind (finds_mounted hheld.path fun h =>
    ⟨hheld.at, (hready ownership hdocumented h).2⟩) fun _ hmounted => ?_
  refine Finds.bind finds_fileName fun targetName hname => ?_
  subst hname
  refine Finds.bind (finds_requirePresentChild fun h => ?_) fun _ _ => ?_
  · obtain ⟨folder, hfolder, -⟩ := (hready ownership hdocumented h).1.target
    rw [World.children_of_folder? w hfolder]
    exact Option.some_ne_none _
  refine Finds.bind (finds_openTargetDirectory fun h => ?_) fun root hroot => ?_
  · obtain ⟨folder, hfolder, -⟩ := (hready ownership hdocumented h).1.target
    exact ⟨_, _, .child hfolder⟩
  obtain ⟨folder, hfolder, hfolderIdentity, hfolderDevice⟩ := Site.at_path.mp hroot.2
  refine Finds.bind (finds_ensure fun h => ?_) fun _ hrootIdentity => ?_
  · obtain ⟨other, hother, hotherIdentity⟩ := (hready ownership hdocumented h).1.target
    obtain rfl := Option.some.inj (hfolder.symm.trans hother)
    exact hfolderIdentity.symm.trans hotherIdentity
  refine Finds.bind (finds_requireBtrfsMount hroot.1 fun h =>
    ⟨hroot.2, (hready ownership hdocumented h).2⟩) fun _ _ => ?_
  refine Finds.bind (finds_cleared hheld hpaths fun h =>
    (hready ownership hdocumented h).1.cleared) fun _ hcleared => ?_
  refine Finds.bind (finds_readWorkspaceOwnership fun _ => ⟨_, hdocumented⟩)
    fun again hagain => ?_
  refine Finds.bind (finds_ensure fun _ => hdocumented.unique hagain) fun _ _ => ?_
  refine Finds.bind (finds_revalidate hroot.1 fun _ => hroot.2) fun _ _ => ?_
  refine Finds.bind (finds_callOr trivial fun _ => ⟨(), w, rfl, trivial⟩) fun _ _ => ?_
  refine finds_pure ⟨rfl, ownership, ⟨hdocumented, hregisters, hunregistered, ?_, ?_, hcleared⟩,
    hmounted.2⟩
  · rw [← hsame, hidentity]
  · exact ⟨folder, hfolder, hfolderIdentity.trans hrootIdentity⟩

/-! ### When it is accepted

An ownership may name another mount than the site's; then the check refuses.  With this case
the acceptance is exact. -/

/-- In a quiet world a directory on another mount is refused.  The report of the path names the
volume and the mount of the site, and the check compares them with those of the ownership. -/
theorem safe_requireBtrfsMount_other {directory : TargetDirectory} {path : AbsolutePath}
    {volume : VolumeId} {mount : UInt64} (hpath : directory.path = path.asBytes)
    (hat : site.At w path directory.identity directory.device)
    (h : ¬(volume = site.volumeId ∧ mount = site.mountId)) :
    Safe (quiet euid site) (fun c _ => c.Reads) (fun outcome _ => ∀ a, outcome ≠ .ok a)
      (requireBtrfsMount directory volume mount) w := by
  have hcalm : ∀ (e : PortError) (w' : World κ), true = false →
      ∀ a : Unit, (.error e : Except PortError Unit) ≠ .ok a :=
    fun _ _ h => Bool.noConfusion h
  refine Finds.thenSafe (finds_revalidate hpath fun _ => hat) (fun _ _ => ?_) hcalm
  rw [hpath]
  refine Finds.thenSafe (finds_liftExcept fun _ => ⟨path, Linux.absolute_asBytes path⟩)
    (fun resolved hresolved => ?_) hcalm
  rw [Linux.absolute_asBytes] at hresolved
  obtain rfl := Except.ok.inj hresolved
  refine Finds.thenSafe (finds_callOr trivial fun _ => possible_inspectPath hat)
    (fun report hreport => ?_) hcalm
  obtain ⟨identity, device, hat', hdescribes⟩ := hreport.2 rfl
  obtain ⟨rfl, rfl⟩ := hat.unique hat'
  refine Finds.thenSafe (finds_ensure fun _ => ⟨hdescribes.resolution, hdescribes.last_ancestry⟩)
    (fun _ _ => ?_) hcalm
  rw [hdescribes.btrfsIdentity]
  change Safe _ _ _ (ensure ((site.volumeId, site.mountId) = (volume, mount)) _) w
  rw [ensure, if_neg fun hsame => h ⟨(Prod.mk.inj hsame).1.symm, (Prod.mk.inj hsame).2.symm⟩]
  rintro a ⟨⟩

/-- In a quiet world a workspace whose ownership names another mount is refused.  The checks before
that of the mount pass in a workspace that is ready, and the first one of the mount fails. -/
theorem safe_validateReadyWorkspace_other (htarget : reservation.targetPath = site.path leaf)
    {ownership : WorkspaceOwnership} (hready : Ready toml site leaf layout reservation w ownership)
    (h : ¬Mounted site ownership) :
    Safe (quiet euid site) (fun c _ => c.Reads) (fun outcome _ => ∀ path, outcome ≠ .ok path)
      (validateReadyWorkspace toml layout reservation) w := by
  have hparent : pathParent reservation.targetPath = some site.parent.asBytes := by
    rw [htarget, Linux.pathParent_eq (site.path_ne_root leaf)]
    exact congrArg (some ∘ AbsolutePath.asBytes) (site.parent_path leaf)
  unfold validateReadyWorkspace
  rw [hparent]
  refine Finds.thenSafe (finds_callOr trivial fun _ => ⟨(), w, rfl, trivial⟩) (fun _ _ => ?_)
    fun _ _ h => nomatch h
  refine Finds.thenSafe (finds_readWorkspaceOwnership fun _ => ⟨_, hready.documented⟩)
    (fun found hfound => ?_) fun _ _ h => nomatch h
  obtain rfl := hready.documented.unique hfound
  refine Finds.thenSafe (finds_ensure fun _ => ⟨hready.registers, ?_⟩) (fun _ _ => ?_)
    fun _ _ h => nomatch h
  · rw [hready.unregistered]
    rfl
  refine Finds.thenSafe (finds_orMissing fun _ => Option.some_ne_none _)
    (fun parentPath hpath => ?_) fun _ _ h => nomatch h
  obtain rfl := Option.some.inj hpath
  refine Finds.thenSafe (finds_openTargetDirectory fun _ => ⟨_, _, .parent⟩)
    (fun parent hopened => ?_) fun _ _ h => nomatch h
  obtain ⟨hidentity, hdevice⟩ := Site.at_parent.mp hopened.2
  refine Finds.thenSafe (finds_ensure fun _ => hidentity.trans hready.parent.symm) (fun _ _ => ?_)
    fun _ _ h => nomatch h
  exact Safe.bind (safe_requireBtrfsMount_other hopened.1 hopened.2 h)
    (fun _ _ hok => absurd rfl (hok _)) fun _ _ _ => nofun

/-- **A workspace is accepted exactly where it is ready.**  The check changes nothing, whatever
fails.  Where it accepts, it returns the registered path and the workspace is ready; and in a quiet
world it accepts exactly where the workspace is ready and its ownership names the volume and the
mount on which it is. -/
theorem validateReadyWorkspace_exact (htarget : reservation.targetPath = site.path leaf)
    (w : World κ) :
    (∀ w', Visits (faulty euid site) (validateReadyWorkspace toml layout reservation) w w' →
      w' = w) ∧
    (∀ path w', Returns (faulty euid site) (validateReadyWorkspace toml layout reservation) w
      (.ok path) w' → path = reservation.targetPath ∧ ∃ ownership,
        Ready toml site leaf layout reservation w ownership) ∧
    ∀ outcome w', Returns (quiet euid site) (validateReadyWorkspace toml layout reservation) w
      outcome w' → (outcome = .ok reservation.targetPath ↔ ∃ ownership,
        Ready toml site leaf layout reservation w ownership ∧ Mounted site ownership) := by
  have hfaulty : Finds euid site false _ (validateReadyWorkspace toml layout reservation) w :=
    finds_validateReadyWorkspace htarget nofun
  have htruth : ∀ path w', Returns (faulty euid site)
      (validateReadyWorkspace toml layout reservation) w (.ok path) w' →
      path = reservation.targetPath ∧ ∃ ownership,
        Ready toml site leaf layout reservation w ownership := by
    intro path w' run
    obtain ⟨-, hpath, ownership, hready, -⟩ := Safe.of_returns hfaulty run
    exact ⟨hpath, ownership, hready⟩
  refine ⟨fun w' run => eq_of_visits hfaulty run, htruth, fun outcome w' run => ⟨?_, fun h => ?_⟩⟩
  · rintro rfl
    obtain ⟨-, ownership, hready⟩ := htruth _ w'
      (run.weaken fun _ _ _ _ hstep => faulty_of_environment euid site hstep)
    refine ⟨ownership, hready, ?_⟩
    by_contra hother
    exact Safe.of_returns (safe_validateReadyWorkspace_other htarget hready hother) run _ rfl
  · have hquiet : Finds euid site true _ (validateReadyWorkspace toml layout reservation) w :=
      finds_validateReadyWorkspace htarget fun _ => h
    have hpost := Safe.of_returns hquiet run
    cases outcome with
    | ok path => exact congrArg Except.ok hpost.2.1
    | error e => cases hpost

/-- The created workspace once its operation directories are cleared. -/
def sampleReadyWorld : World Bool :=
  (sampleWorld.setChild (OperationKind.name sampleReservation.workspaceId .staging).bytes
    none).setChild (OperationKind.name sampleReservation.workspaceId .trash).bytes none

/-- It is ready: clearing the two directories has left the target where it was.  The ownership and
its record are those of the sample that has begun. -/
theorem sampleReadyWorld_ready : Ready sampleToml sampleSite sampleLeaf sampleLayout
    sampleReservation sampleReadyWorld sampleOwnership where
  documented := sampleBegun.documented.congr rfl
  registers := sampleRecorded.registers
  unregistered := rfl
  parent := rfl
  target := by
    obtain ⟨folder, hfolder, hidentity⟩ := sampleBegun.target
    refine ⟨folder, ?_, hidentity⟩
    have hkept : sampleReadyWorld.children sampleLeaf.bytes =
        sampleWorld.children sampleLeaf.bytes :=
      (World.children_setChild_of_ne _ _ (by decide +kernel)).trans
        (World.children_setChild_of_ne _ _ (by decide +kernel))
    exact (World.folder?_congr sampleWorld hkept).trans hfolder
  cleared kind := by
    cases kind
    · exact (World.children_setChild_of_ne _ _ (by decide +kernel)).trans
        (World.children_setChild_self _ _ _)
    · exact World.children_setChild_self _ _ _

/-- The workspace that is ready is accepted: in a quiet world there is a run of the check, and
every run returns the registered path.  Every run accepts by the theorem, and that there is one
follows from the progress of its checks in a quiet world. -/
theorem validateReadyWorkspace_exact_sample :
    (∀ outcome w', Returns (quiet 1000 sampleSite)
      (validateReadyWorkspace sampleToml sampleLayout sampleReservation) sampleReadyWorld
      outcome w' → outcome = .ok sampleReservation.targetPath) ∧
    ∃ outcome w', Returns (quiet 1000 sampleSite)
      (validateReadyWorkspace sampleToml sampleLayout sampleReservation) sampleReadyWorld
      outcome w' := by
  have haccepted : ∃ ownership, Ready sampleToml sampleSite sampleLeaf sampleLayout
      sampleReservation sampleReadyWorld ownership ∧ Mounted sampleSite ownership :=
    ⟨sampleOwnership, sampleReadyWorld_ready, sampleRecorded.volumeId, sampleRecorded.mountId⟩
  refine ⟨fun outcome w' run => ?_, ?_⟩
  · exact ((validateReadyWorkspace_exact sampleTarget sampleReadyWorld).2.2 outcome w' run).mpr
      haccepted
  · have hquiet : Finds 1000 sampleSite true _
        (validateReadyWorkspace sampleToml sampleLayout sampleReservation) sampleReadyWorld :=
      finds_validateReadyWorkspace sampleTarget fun _ => haccepted
    exact Safe.exists_returns (fun c s _ => quiet_live 1000 sampleSite c s) hquiet

end Lifecycle
end ThinWorkspace
