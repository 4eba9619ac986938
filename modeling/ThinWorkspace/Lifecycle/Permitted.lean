/-
# What a removal may do, and that it does it

Source: `remove_workspace` and what it calls in `crates/thinws-adapter-linux/src/workspace.rs`.

`permitted` says where each call of a removal may be made: the target is moved only where its
ownership registers where to and no operation directory is left, and a directory is emptied or
removed only where it is one that the ownership names, by identity (`Doomed`).
`attains_removeWorkspace` is the rule of the whole: in any world every call is permitted, and in a
quiet one a removal that can start (`Resumable`) ends with all four names gone.
-/

import ThinWorkspace.Lifecycle.Remove

namespace ThinWorkspace
namespace Lifecycle

open ThinWorkspace.Core Lib Ports
open Linux (WorkspaceOwnership decodeWorkspaceOwnership encodeWorkspaceOwnership documentError)
open Program (Achieves Safe)

variable {κ : Type} {euid : UInt32} {toml : TomlLibrary}

/-! ### Names

The names of a workspace: its target, the two operation directories and the isolated target,
all of them different. -/

/-- The name of an operation directory beside the target of the workspace. -/
def OperationKind.name (id : WorkspaceId) : OperationKind → FileName
  | .staging => ⟨_, Application.normal_siblingName (Prepared.stagingName_mem id)⟩
  | .trash => ⟨_, Application.normal_siblingName (Prepared.trashName_mem id)⟩

/-- An operation directory has one of the sibling names of the workspace. -/
theorem OperationKind.name_mem (kind : OperationKind) (id : WorkspaceId) :
    (kind.name id).bytes ∈ Application.siblingNames id := by
  cases kind
  · exact Prepared.stagingName_mem id
  · exact Prepared.trashName_mem id

/-- An operation directory does not have the name of the isolated target. -/
theorem OperationKind.name_ne_isolated (kind : OperationKind) (id : WorkspaceId) :
    (kind.name id).bytes ≠ (isolated id).bytes := by
  have hnodup := Linux.nodup_siblingNames id
  simp only [Application.siblingNames, List.nodup_cons, List.mem_cons, List.not_mem_nil,
    or_false, not_or] at hnodup
  cases kind
  · exact hnodup.1.2
  · exact hnodup.2.1

/-- The two operation directories have different names. -/
theorem name_staging_ne_trash (id : WorkspaceId) :
    (OperationKind.name id .trash).bytes ≠ (OperationKind.name id .staging).bytes := by
  have hnodup := Linux.nodup_siblingNames id
  simp only [Application.siblingNames, List.nodup_cons, List.mem_cons, List.not_mem_nil,
    or_false, not_or] at hnodup
  exact Ne.symm hnodup.1.1

/-- The target has none of the reserved names, as `prepare_workspace` requires. -/
def Unreserved (leaf : FileName) (id : WorkspaceId) : Prop :=
  leaf.bytes ∉ Application.siblingNames id

/-- Neither place of an unreserved target is the name of an operation directory. -/
theorem Unreserved.place_ne {leaf : FileName} {id : WorkspaceId} (h : Unreserved leaf id)
    (kind : OperationKind) (atIsolatedPath : Bool) :
    (place leaf id atIsolatedPath).bytes ≠ (kind.name id).bytes := by
  cases atIsolatedPath
  · exact fun he => h (he ▸ kind.name_mem id)
  · exact (kind.name_ne_isolated id).symm

/-- An unreserved target does not have the name to which it is isolated. -/
theorem Unreserved.leaf_ne {leaf : FileName} {id : WorkspaceId} (h : Unreserved leaf id) :
    leaf.bytes ≠ (isolated id).bytes := fun he => h (he ▸ isolatedName_mem id)

/-! ### The guard

Where a removal may make its calls, as a predicate on the world at that moment: a directory
is removed when its turn has come, and the ownership is rewritten once, with the path of the
isolation. -/

section Guard

variable (site : Site κ) (leaf : FileName) (id : WorkspaceId) (w : World κ)

/-- No operation directory is left: neither staging nor trash has an entry. -/
def Cleared : Prop := ∀ kind : OperationKind, w.children (kind.name id).bytes = none

/-- The directory of that name is one that the ownership names, and its turn has come: that of
an operation directory while the target is in place, and that of the isolated target once they
are gone. -/
inductive Doomed (ownership : WorkspaceOwnership) : FileName → Prop
  | operation {kind : OperationKind} {folder : Folder κ}
      (hfolder : w.folder? (kind.name id).bytes = some folder)
      (hidentity : folder.identity = (kind.evidence ownership).identity)
      (hprivate : folder.isPrivate = true)
      (hlocated : ∃ directory atIsolatedPath,
        Located site leaf id w ownership directory atIsolatedPath) :
      Doomed ownership (kind.name id)
  | target {directory : TargetDirectory}
      (hlocated : Located site leaf id w ownership directory true) (hcleared : Cleared id w) :
      Doomed ownership (isolated id)

/-- The ownership with the path of the isolation registered. -/
def isolate (ownership : WorkspaceOwnership) : WorkspaceOwnership :=
  { ownership with isolatedPath := some (site.path (isolated id)) }

/-- Where a removal may make each of its calls. -/
def permitted (toml : TomlLibrary) : LifecycleCall → World κ → Prop
  | .renameNoreplace source target, w => source = leaf.bytes ∧ target = (isolated id).bytes ∧
      Cleared id w ∧ ∃ ownership directory, Documented toml w id ownership ∧
        ownership.isolatedPath.isSome = true ∧
        Located site leaf id w ownership directory false
  | .removeContents directory _, w => ∃ ownership name folder, Documented toml w id ownership ∧
      Doomed site leaf id w ownership name ∧ site.Stands w directory name folder
  | .rmdir name, w => ∃ ownership entry, Documented toml w id ownership ∧
      Doomed site leaf id w ownership entry ∧ name = entry.bytes
  | .exchangeDocument temporary name, w => name = .ownership id ∧ ∃ ownership uuid bytes,
      temporary = .staged updateStem uuid ∧ Documented toml w id ownership ∧
        ownership.isolatedPath = none ∧ w.documents temporary = some bytes ∧
        encodeWorkspaceOwnership toml (isolate site id ownership) = .ok bytes
  | .stageDocument stem _, _ => stem = updateStem
  | .removeDocument name, _ | .dropDocument name, _ => ∃ uuid, name = .staged updateStem uuid
  | .publishDocument _ _, _ | .mkdir _, _ => False
  | _, _ => True

/-- A call that only reads is permitted. -/
theorem permitted_reads (c : LifecycleCall) (h : c.Reads) : permitted site leaf id toml c w := by
  cases c <;> first | exact h.elim | trivial

end Guard

/-! ### The rules of its parts

Small parts that later proofs pass over. -/

section Rules

variable {site : Site κ} {leaf : FileName} {id : WorkspaceId} {calm : Bool} {w : World κ}

/-- The path of an operation directory, in a valid ownership of the target. -/
theorem evidence_path {ownership : WorkspaceOwnership} (hvalid : ownership.Valid)
    (htarget : ownership.targetPath = site.path leaf) (hid : ownership.workspaceId = id)
    (kind : OperationKind) : (kind.evidence ownership).path = site.path (kind.name id) := by
  have hroot := site.path_ne_root leaf
  have hparent := site.parent_path leaf
  refine AbsolutePath.asBytes_injective ?_
  cases kind with
  | staging =>
    have hpath := hvalid.valid.staging_path
    rw [htarget, hid, Linux.isSibling_iff hroot, hparent] at hpath
    exact hpath.trans (Linux.siblingPathBytes_eq (OperationKind.name id .staging).normal)
  | trash =>
    have hpath := hvalid.valid.trash_path
    rw [htarget, hid, Linux.isSibling_iff hroot, hparent] at hpath
    exact hpath.trans (Linux.siblingPathBytes_eq (OperationKind.name id .trash).normal)

/-- Syncing the parent changes nothing. -/
theorem attains_syncTargetParent {T : World κ → Prop} (h : T w) :
    Attains euid site calm (permitted site leaf id toml) (fun _ => T) syncTargetParent w :=
  attains_callOr (.inl trivial) (fun _ => ⟨(), w, rfl, trivial⟩) fun _ w' heffect => by
    obtain rfl : w' = w := heffect
    exact h

/-! ### Emptying a directory

Emptying a directory asks for a scope check that shows it is doomed, and leaves the
directory standing, without contents. -/

/-- A target is located as long as the entries of its two places stay. -/
theorem Located.congr_children {w' : World κ} {ownership : WorkspaceOwnership}
    {directory : TargetDirectory} {atIsolatedPath : Bool}
    (h : Located site leaf id w ownership directory atIsolatedPath)
    (hkept : ∀ at', w'.children (place leaf id at').bytes = w.children (place leaf id at').bytes) :
    Located site leaf id w' ownership directory atIsolatedPath := by
  obtain ⟨folder, hstands⟩ := h.stands
  refine ⟨⟨folder, hstands.path, ?_, hstands.identity, hstands.device⟩, h.identity, ?_,
    h.registered⟩
  · rw [w.folder?_congr (hkept atIsolatedPath)]
    exact hstands.named
  · rw [hkept]
    exact h.other

/-- A target is verified as long as these entries and the ownership document stay. -/
theorem Verified.congr {w' : World κ} {ownership : WorkspaceOwnership}
    {directory : TargetDirectory} (h : Verified toml site leaf id w ownership directory)
    (hdocument : w'.documents (.ownership id) = w.documents (.ownership id))
    (hkept : ∀ at', w'.children (place leaf id at').bytes = w.children (place leaf id at').bytes) :
    Verified toml site leaf id w' ownership directory :=
  ⟨h.documented.congr hdocument, h.located.imp fun _ hat => hat.congr_children hkept⟩

/-- An emptied directory stands where it stood. -/
theorem Site.Stands.emptied {directory : TargetDirectory} {name : FileName} {folder : Folder κ}
    (h : site.Stands w directory name folder) (contents : κ) :
    site.Stands (w.setChild name.bytes (some (.folder { folder with contents := contents })))
      directory name { folder with contents := contents } where
  path := h.path
  named := World.folder?_of_children _ (World.children_setChild_self w _ _)
  identity := h.identity
  device := h.device

/-- Emptying a directory is permitted behind a scope check that shows it is doomed, and leaves an
empty folder of the same identity. -/
theorem attains_removeRootContents {directory : TargetDirectory} {mount : UInt64}
    {verifyScope : Handling Unit} {T : Unit → Prop} {name : FileName} {folder : Folder κ}
    (hverify : Finds euid site calm T verifyScope w)
    (hguard : T () → permitted site leaf id toml (.removeContents directory mount) w)
    (hstands : site.Stands w directory name folder)
    (hcalm : calm = true → site.removable folder.contents) :
    Attains euid site calm (permitted site leaf id toml) (fun _ w' => w' =
      w.setChild name.bytes (some (.folder { folder with contents := site.empty })))
      (removeRootContents directory mount verifyScope) w := by
  refine hverify.andThen fun _ hscope => ?_
  refine attains_callOr (.inr (hguard hscope)) (fun h => ?_) fun value w' heffect => ?_
  · exact ⟨0, _, ⟨name, folder, hstands, hcalm h, rfl⟩, trivial⟩
  · obtain ⟨name', folder', hstands', -, rfl⟩ := heffect
    obtain ⟨rfl, rfl⟩ := hstands.unique hstands'
    rfl

/-! ### The operation directories

An operation directory is found, verified, emptied and removed; one that is missing has been
removed before. -/

section Operations

variable {registered : RegisteredTarget} {target directory : TargetDirectory}
  {path : AbsolutePath} {kind : OperationKind}

/-- The scope check of an operation directory finds the directory and the target as the ownership
describes them. -/
theorem finds_verifyOperationScope {folder : Folder κ}
    (hsound : Sound site leaf id calm registered) (hpath : target.path = path.asBytes)
    (hstands : site.Stands w directory (kind.name id) folder)
    (hcalm : calm = true →
      Verified toml site leaf id w registered.ownership target ∧ folder.isPrivate = true) :
    Finds euid site calm (fun _ =>
      Verified toml site leaf id w registered.ownership target ∧ folder.isPrivate = true)
      (verifyOperationScope euid toml registered target directory) w := by
  refine Finds.bind (finds_verifySelectedTarget hsound hpath fun h => (hcalm h).1)
    fun _ hverified => ?_
  refine Finds.bind (finds_revalidate hstands.path fun _ => hstands.at) fun _ _ => ?_
  refine Finds.bind (finds_requireBtrfsMount hstands.path fun h => ⟨hstands.at, hsound.mounted h⟩)
    fun _ _ => ?_
  exact (finds_requirePrivate hstands fun h => (hcalm h).2).mono fun _ hprivate =>
    ⟨hverified, hprivate⟩

/-- An operation directory that a removal can remove, or none. -/
def Spent (site : Site κ) (id : WorkspaceId) (w : World κ) (ownership : WorkspaceOwnership)
    (kind : OperationKind) : Prop :=
  w.children (kind.name id).bytes = none ∨ ∃ folder, w.folder? (kind.name id).bytes = some folder ∧
    folder.identity = (kind.evidence ownership).identity ∧ folder.isPrivate = true ∧
      site.removable folder.contents

/-- Removing an operation directory empties it and removes its entry, and nothing else. -/
theorem attains_removeOperation {folder : Folder κ}
    (hsound : Sound site leaf id calm registered) (hpath : target.path = path.asBytes)
    (hstands : site.Stands w directory (kind.name id) folder)
    (hcalm : calm = true → Unreserved leaf id ∧
      Verified toml site leaf id w registered.ownership target ∧
      folder.identity = (kind.evidence registered.ownership).identity ∧
      folder.isPrivate = true ∧ site.removable folder.contents) :
    Attains euid site calm (permitted site leaf id toml)
      (fun _ w' => w' = w.setChild (kind.name id).bytes none)
      (removeOperation euid toml registered target directory
        (kind.evidence registered.ownership)) w := by
  refine Finds.andThen (finds_ensure fun h => ?_) fun _ hidentity => ?_
  · rw [← hstands.identity]
    exact (hcalm h).2.2.1
  refine Finds.andThen (finds_requireBtrfsMount hstands.path fun h =>
    ⟨hstands.at, hsound.mounted h⟩) fun _ _ => ?_
  refine Finds.andThen (finds_requirePrivate hstands fun h => (hcalm h).2.2.2.1)
    fun _ hprivate => ?_
  refine Achieves.bind (attains_removeRootContents
    (finds_verifyOperationScope hsound hpath hstands fun h => ⟨(hcalm h).2.1, hprivate⟩)
    (fun hscope => ?_) hstands fun h => (hcalm h).2.2.2.2) fun _ w' hw' => ?_
  · exact ⟨registered.ownership, kind.name id, folder, hscope.1.documented,
      .operation hstands.named (hstands.identity.trans hidentity) hprivate ⟨_, hscope.1.located⟩,
      hstands⟩
  subst hw'
  have hemptied := hstands.emptied site.empty
  refine Finds.andThen (finds_verifyOperationScope hsound hpath hemptied fun h => ⟨?_, hprivate⟩)
    fun _ hscope => ?_
  · exact (hcalm h).2.1.congr rfl fun at' =>
      World.children_setChild_of_ne w _ ((hcalm h).1.place_ne kind at')
  rw [evidence_path hsound.valid hsound.ownership_targetPath hsound.workspaceId kind]
  refine Finds.andThen finds_fileName fun name hname => ?_
  subst hname
  refine Achieves.bind (attains_callOr (P := fun _ w' => w' = w.setChild (kind.name id).bytes none)
    (.inr ⟨registered.ownership, kind.name id, hscope.1.documented, .operation hemptied.named
      (hstands.identity.trans hidentity) hprivate ⟨_, hscope.1.located⟩, rfl⟩)
    (fun _ => ⟨(), _, ⟨⟨_, hemptied.named, rfl⟩, rfl⟩, trivial⟩) fun _ w' heffect => ?_)
    fun _ w' hw' => ?_
  · rw [heffect.2, World.setChild_setChild]
  · exact attains_syncTargetParent hw'

/-- **An operation directory is removed as a whole.**  It is gone and nothing else has changed. -/
theorem attains_removeOperationDirectory
    (hsound : Sound site leaf id calm registered) (hpath : target.path = path.asBytes)
    (hcalm : calm = true → Unreserved leaf id ∧
      Verified toml site leaf id w registered.ownership target ∧
      Spent site id w registered.ownership kind) :
    Attains euid site calm (permitted site leaf id toml)
      (fun _ w' => w' = w.setChild (kind.name id).bytes none)
      (removeOperationDirectory euid toml registered target kind) w := by
  unfold removeOperationDirectory
  dsimp only
  rw [evidence_path hsound.valid hsound.ownership_targetPath hsound.workspaceId kind]
  refine Finds.andThen (finds_openOptionalTarget fun h => ?_) fun found hfound => ?_
  · exact (hcalm h).2.2.imp_right fun ⟨folder, hfolder, _⟩ => ⟨folder, hfolder⟩
  · cases found with
    | none => exact (World.setChild_eq_self w hfound).symm
    | some directory =>
      obtain ⟨folder, hstands⟩ := hfound
      refine attains_removeOperation hsound hpath hstands fun h => ?_
      obtain ⟨hunreserved, hverified, hspent⟩ := hcalm h
      rcases hspent with hnone | ⟨folder', hfolder', hspent⟩
      · rw [World.children_of_folder? w hstands.named] at hnone
        cases hnone
      · obtain rfl := Option.some.inj (hstands.named.symm.trans hfolder')
        exact ⟨hunreserved, hverified, hspent⟩

end Operations

end Rules

end Lifecycle
end ThinWorkspace
