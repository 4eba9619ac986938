/-
# The isolation of the target, and the whole removal

Source: `persist_workspace_ownership` and `remove_workspace` in
`crates/thinws-adapter-linux/src/workspace.rs`.

The path of the isolation is registered by an exchange of two documents: at every moment the
ownership is readable, as it was or with the path (`attains_persistWorkspaceOwnership`).  Only
then is the target renamed, and only where it is renamed is it emptied.
`attains_removeWorkspace` is the rule of the whole removal.
-/

import ThinWorkspace.Lifecycle.Permitted

namespace ThinWorkspace
namespace Lifecycle

open ThinWorkspace.Core Lib Ports
open Linux (WorkspaceOwnership decodeWorkspaceOwnership encodeWorkspaceOwnership documentError)
open Program (Achieves Safe)

variable {κ : Type} {euid : UInt32} {toml : TomlLibrary} {site : Site κ} {leaf : FileName}
  {id : WorkspaceId} {calm : Bool} {w : World κ} {ownership : WorkspaceOwnership}

/-! ### Registering the path

The ownership is rewritten with one more path: staged, exchanged, confirmed, and the old
document dropped.  At every moment one of the two documents has the name, so an interruption
leaves a valid ownership. -/

/-- Taking the path of the isolation away again gives the ownership from before. -/
theorem unisolated_isolate (h : ownership.isolatedPath = none) :
    unisolated (isolate site id ownership) = ownership := by
  obtain ⟨⟨instanceId, workspaceId, volumeId, targetPath, parent, target, staging, trash, path⟩,
    mountId⟩ := ownership
  obtain rfl : path = none := h
  rfl

/-- An ownership stays valid when the path is registered. -/
theorem isolate_valid (hvalid : ownership.Valid) (htarget : ownership.targetPath = site.path leaf)
    (hid : ownership.workspaceId = id) : (isolate site id ownership).Valid := by
  obtain ⟨hold, hmount⟩ := hvalid
  refine ⟨⟨hold.target_ne_root, hold.parent, hold.target, hold.staging, hold.trash,
    hold.staging_path, hold.trash_path, ?_⟩, hmount⟩
  intro path hpath
  obtain rfl := Option.some.inj hpath
  have hroot := site.path_ne_root leaf
  change Linux.IsSibling ownership.targetPath ownership.workspaceId _ _
  rw [htarget, hid, Linux.isSibling_iff hroot, Site.parent_path]
  exact (Linux.siblingPathBytes_eq (isolated id).normal).symm

/-- An ownership of directories that lie where they should is valid.  Each operation directory has
the path that the source computes from the target for it, so the sibling checks hold by
`Linux.isSibling_iff`. -/
theorem valid_of_paths (hparent : ownership.parent.Valid) (hdirectory : ownership.target.Valid)
    (hevidence : ∀ kind : OperationKind, (kind.evidence ownership).identity.Valid ∧
      (kind.evidence ownership).path = site.path (kind.name id))
    (htarget : ownership.targetPath = site.path leaf) (hid : ownership.workspaceId = id)
    (hnone : ownership.isolatedPath = none) (hmount : ownership.mountId ≠ 0) :
    ownership.Valid := by
  have hroot : ownership.targetPath.asBytes ≠ [slash] := htarget ▸ site.path_ne_root leaf
  have hsibling : ∀ kind : OperationKind, (kind.evidence ownership).path.asBytes =
      (ownership.targetPath.parent.child _ (kind.name id).normal).asBytes := by
    intro kind
    rw [htarget, site.parent_path, (hevidence kind).2]
    rfl
  refine ⟨⟨hroot, hparent, hdirectory, (hevidence .staging).1, (hevidence .trash).1, ?_, ?_, ?_⟩,
    hmount⟩
  · rw [Linux.isSibling_iff hroot, hid]
    exact (hsibling .staging).trans (Linux.siblingPathBytes_eq _).symm
  · rw [Linux.isSibling_iff hroot, hid]
    exact (hsibling .trash).trans (Linux.siblingPathBytes_eq _).symm
  · rw [hnone]
    exact nofun

/-- The ownership with the path can be written, and is read back. -/
structure Encodable (toml : TomlLibrary) (site : Site κ) (id : WorkspaceId)
    (ownership : WorkspaceOwnership) : Prop where
  encoded : ∃ bytes, encodeWorkspaceOwnership toml (isolate site id ownership) = .ok bytes
  readsBack : toml.ReadsBack (Linux.ownershipDocument (isolate site id ownership)).toTable

/-- There is a name under which the update can be staged. -/
def Stageable (w : World κ) : Prop := ∃ uuid, w.documents (.staged updateStem uuid) = none

/-- The check that the ownership is still the current one finds it documented, or withdraws the
staged update.  Where the check fails, the staged document is removed and the error is passed on;
in a quiet world it does not fail, because the documented ownership is the current one. -/
theorem attains_requireStill {desired current : WorkspaceOwnership} {temporary : DocumentName}
    (htemporary : ∃ uuid, temporary = .staged updateStem uuid)
    (hid : desired.workspaceId = id) (hcalm : calm = true → Documented toml w id current) :
    Attains euid site calm (permitted site leaf id toml)
      (fun _ w' => w' = w ∧ Documented toml w id current)
      (requireStill toml desired current temporary) w := by
  have hcheck : Finds euid site calm (fun _ => Documented toml w id current)
      (readWorkspaceOwnership toml desired.workspaceId >>= fun again => ensure (again = current)
        (.new .invalidLayout "Workspace ownership changed before publication")) w := by
    rw [hid]
    refine Finds.bind (finds_readWorkspaceOwnership fun h => ⟨_, hcalm h⟩) fun again hagain => ?_
    refine (finds_ensure fun h => (hcalm h).unique hagain).mono fun _ hsame => ?_
    rw [← hsame]
    exact hagain
  refine Safe.handle hcheck.attains (fun _ _ h => h) fun e w' hfailed => ?_
  -- The check has failed, so the world is not a quiet one.
  refine Achieves.bind (attains_callOr (P := fun _ _ => True) (.inr htemporary)
    (fun _ => ⟨(), w', .inl rfl, trivial⟩) fun _ _ _ => trivial) fun _ _ _ => ?_
  exact Program.achieves_throw hfailed

/-- The exchange of the documents is confirmed: the new one is in place and the staged name holds
the old one.  Both documents are read again: the published one under its own name and the old one
under the staged name, which is then removed. -/
theorem attains_confirmExchange {desired current : WorkspaceOwnership} {temporary : DocumentName}
    (htemporary : ∃ uuid, temporary = .staged updateStem uuid)
    (hid : desired.workspaceId = id)
    (hcalm : calm = true → Documented toml w id desired ∧ ∃ bytes,
      w.documents temporary = some bytes ∧ decodeWorkspaceOwnership toml bytes = .ok current) :
    Attains euid site calm (permitted site leaf id toml)
      (fun _ w' => w' = w.setDocument temporary none ∧ Documented toml w id desired)
      (confirmExchange toml desired current temporary) w := by
  unfold confirmExchange
  rw [hid]
  refine Finds.andThen (finds_readWorkspaceOwnership fun h => ⟨_, (hcalm h).1⟩)
    fun published hpublished => ?_
  refine Finds.andThen (finds_ensure fun h => (hcalm h).1.unique hpublished) fun _ hsame => ?_
  rw [hsame] at hpublished
  refine Finds.andThen (finds_callOr trivial fun _ => ⟨_, w, ⟨rfl, rfl⟩, trivial⟩)
    fun found hfound => ?_
  have hfound' := hfound.1.2
  refine Finds.andThen (finds_orMissing fun h => ?_) fun old hold => ?_
  · obtain ⟨bytes, hbytes, -⟩ := (hcalm h).2
    rw [hfound', hbytes]
    exact Option.some_ne_none _
  have hdecode : calm = true → decodeWorkspaceOwnership toml old = .ok current := by
    intro h
    obtain ⟨bytes, hbytes, hdecode⟩ := (hcalm h).2
    rw [hbytes, hold] at hfound'
    obtain rfl := Option.some.inj hfound'
    rw [decodeWorkspaceOwnership_take]
    exact hdecode
  refine Finds.andThen (finds_liftExcept fun h => ⟨_, hdecode h⟩) fun displaced hdisplaced => ?_
  refine Finds.andThen (finds_ensure fun h => ?_) fun _ _ => ?_
  · exact Except.ok.inj (hdisplaced.symm.trans (hdecode h))
  have hpresent : w.documents temporary ≠ none := by
    intro hnone
    rw [hnone, hold] at hfound'
    cases hfound'
  refine Achieves.bind (attains_callOr (P := fun _ w' => w' = w.setDocument temporary none)
    (.inr htemporary) (fun _ => ⟨(), _, ⟨hpresent, rfl⟩, trivial⟩) fun _ w' heffect => heffect.2)
    fun _ w' hw' => ?_
  refine attains_callOr (.inl trivial) (fun _ => ⟨(), w', rfl, trivial⟩) fun _ w'' heffect => ?_
  obtain rfl : w'' = w' := heffect
  exact ⟨hw', hpublished⟩

/-- **The path is registered by an exchange.**  Afterwards the ownership has it, and every other
document and every entry is as it was.  An ownership that is the documented one already needs no
write.  Otherwise the new document is staged, the old one is checked to be still there, the two are
exchanged, and the old one is withdrawn from under the staged name. -/
theorem attains_persistWorkspaceOwnership (hvalid : ownership.Valid)
    (htarget : ownership.targetPath = site.path leaf) (hid : ownership.workspaceId = id)
    (hnone : ownership.isolatedPath = none)
    (hcalm : calm = true →
      Documented toml w id ownership ∧ Encodable toml site id ownership ∧ Stageable w) :
    Attains euid site calm (permitted site leaf id toml) (fun _ w' => w'.children = w.children ∧
      Documented toml w' id (isolate site id ownership) ∧
      ∀ name, name ≠ .ownership id → w'.documents name = w.documents name)
      (persistWorkspaceOwnership toml (isolate site id ownership)) w := by
  have hworkspace : (isolate site id ownership).workspaceId = id := hid
  unfold persistWorkspaceOwnership
  rw [hworkspace]
  refine Finds.andThen (finds_readWorkspaceOwnership fun h => ⟨_, (hcalm h).1⟩)
    fun current hcurrent => ?_
  split
  · rename_i hsame
    rw [hsame] at hcurrent
    exact ⟨rfl, hcurrent, fun _ _ => rfl⟩
  · rw [unisolated_isolate hnone]
    refine Finds.andThen (finds_ensure fun h => (hcalm h).1.unique hcurrent) fun _ hsame => ?_
    obtain rfl := hsame
    refine Finds.andThen (finds_liftExcept fun h => (hcalm h).2.1.encoded) fun bytes hbytes => ?_
    refine Achieves.bind (attains_callOr (P := fun name w' => (∃ uuid,
        name = DocumentName.staged updateStem uuid) ∧ w.documents name = none ∧
        w' = w.setDocument name (some bytes)) (.inr rfl) (fun h => ?_) fun name w' heffect => ?_)
      fun temporary w₁ hstaged => ?_
    · obtain ⟨uuid, hfree⟩ := (hcalm h).2.2
      exact ⟨.staged updateStem uuid, _, ⟨uuid, rfl, hfree, rfl⟩, trivial⟩
    · obtain ⟨uuid, hname, hfree, hw'⟩ := heffect
      exact ⟨⟨uuid, hname⟩, hfree, hw'⟩
    obtain ⟨htemporary, hfree, rfl⟩ := hstaged
    have hother : DocumentName.ownership id ≠ temporary := by
      obtain ⟨uuid, rfl⟩ := htemporary
      exact nofun
    have hstill : Documented toml (w.setDocument temporary (some bytes)) id current :=
      hcurrent.congr (World.documents_setDocument_of_ne w _ hother)
    refine Achieves.bind (attains_requireStill htemporary hworkspace fun _ => hstill)
      fun _ w₂ hw₂ => ?_
    obtain ⟨rfl, -⟩ := hw₂
    obtain ⟨-, stored, hstored, hdecode⟩ := hcurrent
    have hdocuments : (w.setDocument temporary (some bytes)).documents (.ownership id) =
        some stored := (World.documents_setDocument_of_ne w _ hother).trans hstored
    refine Achieves.bind (attains_callOr (P := fun _ w' => w' =
        ((w.setDocument temporary (some bytes)).setDocument temporary (some stored)).setDocument
          (.ownership id) (some bytes)) ?_ (fun _ => ?_) fun _ w' heffect => ?_)
      fun _ w₃ hw₃ => ?_
    · obtain ⟨uuid, htemporary'⟩ := htemporary
      exact .inr ⟨rfl, current, uuid, bytes, htemporary', hstill, hnone,
        World.documents_setDocument_self _ _ _, hbytes⟩
    · exact ⟨(), _, ⟨bytes, stored, World.documents_setDocument_self _ _ _, hdocuments, rfl⟩,
        trivial⟩
    · obtain ⟨a, b, ha, hb, rfl⟩ := heffect
      obtain rfl := Option.some.inj ((World.documents_setDocument_self _ _ _).symm.trans ha)
      obtain rfl := Option.some.inj (hdocuments.symm.trans hb)
      rfl
    have hdisplaced : w₃.documents temporary = some stored := by
      rw [hw₃, World.documents_setDocument_of_ne _ _ hother.symm]
      exact World.documents_setDocument_self _ _ _
    refine Achieves.mono (attains_confirmExchange htemporary hworkspace fun h => ⟨?_, stored,
      hdisplaced, hdecode⟩) fun _ w₄ hw₄ => ?_
    · refine ⟨hworkspace, bytes, ?_, ?_⟩
      · rw [hw₃]
        exact World.documents_setDocument_self _ _ _
      · exact Linux.roundTrips_ownership.read_back _ _ (isolate_valid hvalid htarget hid)
          (hcalm h).2.1.readsBack hbytes
    · obtain ⟨rfl, hpublished⟩ := hw₄
      refine ⟨?_, hpublished.congr (World.documents_setDocument_of_ne _ _ hother), ?_⟩
      · rw [hw₃]
        rfl
      · intro name hname
        by_cases htemp : name = temporary
        · rw [htemp, World.documents_setDocument_self, hfree]
        · rw [World.documents_setDocument_of_ne _ _ htemp, hw₃,
            World.documents_setDocument_of_ne _ _ hname,
            World.documents_setDocument_of_ne _ _ htemp,
            World.documents_setDocument_of_ne _ _ htemp]

/-- What `remove_workspace` knows once the path is registered. -/
structure Registration (toml : TomlLibrary) (site : Site κ) (leaf : FileName) (id : WorkspaceId)
    (calm : Bool) (w w' : World κ) (registered registered' : RegisteredTarget) : Prop where
  sound : Sound site leaf id calm registered'
  isSome : registered'.ownership.isolatedPath.isSome = true
  ownership : registered'.ownership = registered.ownership ∨
    registered'.ownership = isolate site id registered.ownership
  documented : Documented toml w' id registered'.ownership
  children : w'.children = w.children
  documents : ∀ name, name ≠ .ownership id → w'.documents name = w.documents name

/-- Registering the isolation makes the ownership that has the path the documented one, and leaves
every entry.  An ownership that has a path already is taken as it is, and any other is persisted
with the path that its target computes. -/
theorem attains_registerIsolation {registered : RegisteredTarget}
    (hsound : Sound site leaf id calm registered)
    (hdocumented : Documented toml w id registered.ownership)
    (hcalm : calm = true → registered.ownership.isolatedPath = none →
      Encodable toml site id registered.ownership ∧ Stageable w) :
    Attains euid site calm (permitted site leaf id toml)
      (fun registered' w' => Registration toml site leaf id calm w w' registered registered')
      (registerIsolation toml registered) w := by
  unfold registerIsolation
  split
  · rename_i hnone
    rw [hsound.isolatedPath]
    refine Finds.andThen (finds_liftExcept fun _ => ⟨_, Linux.absolute_asBytes _⟩)
      fun path hpath => ?_
    rw [Linux.absolute_asBytes] at hpath
    obtain rfl := Except.ok.inj hpath
    refine Achieves.bind (attains_persistWorkspaceOwnership hsound.valid
      hsound.ownership_targetPath hsound.workspaceId hnone fun h =>
        ⟨hdocumented, hcalm h hnone⟩) fun _ w' hw' => ?_
    obtain ⟨hchildren, hpublished, hdocuments⟩ := hw'
    refine Program.achieves_pure ⟨⟨hsound.parent_path, hsound.parent_identity,
      hsound.parent_device, hsound.targetPath, rfl, hsound.workspaceId,
      hsound.ownership_targetPath, hpublished.valid, hsound.mounted⟩, rfl, .inr rfl, hpublished,
      hchildren, hdocuments⟩
  · rename_i hsome
    refine Program.achieves_pure ⟨hsound, ?_, .inl rfl, hdocumented, rfl, fun _ _ => rfl⟩
    exact Option.isSome_iff_ne_none.mpr hsome

/-! ### Moving the target

The target is verified and renamed to a name that was free; behind the rename it is opened
under its new path and compared with what was held.  A target that was isolated before is
left where it is. -/

/-- The place where a target is located is told by the path under which it is held.  If the target
stood at the other place, the two paths would be equal and one name would have to be both taken and
free. -/
theorem Located.eq_place {directory : TargetDirectory} {found : Bool}
    (h : Located site leaf id w ownership directory found) (atIsolatedPath : Bool)
    (hpath : directory.path = (site.path (place leaf id atIsolatedPath)).asBytes) :
    found = atIsolatedPath := by
  by_contra hne
  obtain ⟨folder, hstands⟩ := h.stands
  have hname : place leaf id found = place leaf id atIsolatedPath :=
    Site.path_injective (AbsolutePath.asBytes_injective (hstands.path.symm.trans hpath))
  have hother := h.other
  rw [← Bool.eq_not_of_ne (Ne.symm hne), ← hname, World.children_of_folder? w hstands.named]
    at hother
  cases hother

/-- The two places of a located target are not one.  Were the names equal, the place where the
target stands would also be the place that is free. -/
theorem Located.leaf_ne {directory : TargetDirectory} {atIsolatedPath : Bool}
    (h : Located site leaf id w ownership directory atIsolatedPath) :
    leaf.bytes ≠ (isolated id).bytes := by
  intro he
  obtain ⟨folder, hstands⟩ := h.stands
  have hsame : (place leaf id !atIsolatedPath).bytes = (place leaf id atIsolatedPath).bytes := by
    cases atIsolatedPath
    · exact he.symm
    · exact he
  have hother := h.other
  rw [hsame, World.children_of_folder? w hstands.named] at hother
  cases hother

/-- Where no operation directory is left none is left after an entry was removed, or the target was
isolated. -/
theorem Cleared.setChild (h : Cleared id w) {name : List UInt8} {child : Option (Child κ)}
    (hname : child = none ∨ name = (isolated id).bytes) : Cleared id (w.setChild name child) := by
  intro kind
  by_cases hkind : (kind.name id).bytes = name
  · rcases hname with rfl | rfl
    · rw [hkind]
      exact World.children_setChild_self w name none
    · exact absurd hkind (kind.name_ne_isolated id)
  · rw [World.children_setChild_of_ne w child hkind]
    exact h kind

/-- Isolating the target moves it to its isolated name, where nothing was.  The target is verified
where it stands, then renamed without replacing anything, and found again under its isolated name.
The guard of the rename asks for what the verification has shown. -/
theorem attains_isolateTarget {registered : RegisteredTarget} {target : TargetDirectory}
    (hsound : Sound site leaf id calm registered)
    (hsome : registered.ownership.isolatedPath.isSome = true)
    (hpath : target.path = (site.path leaf).asBytes) (hcleared : Cleared id w)
    (hcalm : calm = true → Verified toml site leaf id w registered.ownership target) :
    Attains euid site calm (permitted site leaf id toml) (fun moved w' =>
      moved.path = (site.path (isolated id)).asBytes ∧
        Located site leaf id w' registered.ownership moved true ∧ Cleared id w' ∧
        ∃ child, w.children leaf.bytes = some child ∧
          w' = (w.setChild leaf.bytes none).setChild (isolated id).bytes (some child))
      (isolateTarget toml registered target) w := by
  unfold isolateTarget
  rw [hsound.targetPath, hsound.isolatedPath]
  refine Finds.andThen (finds_verifySelectedTarget hsound hpath hcalm) fun _ hverified => ?_
  obtain ⟨atIsolatedPath, hlocated⟩ := hverified.located
  obtain rfl := hlocated.eq_place false hpath
  obtain ⟨folder, hstands⟩ := hlocated.stands
  have hleaf : w.children leaf.bytes = some (.folder folder) :=
    World.children_of_folder? w hstands.named
  refine Finds.andThen finds_fileName fun targetName htarget => ?_
  subst htarget
  refine Finds.andThen finds_fileName fun isolatedName hisolated => ?_
  subst hisolated
  refine Achieves.bind (attains_callOr (P := fun _ w' => w' =
      (w.setChild leaf.bytes none).setChild (isolated id).bytes (some (.folder folder)))
    (.inr ⟨rfl, rfl, hcleared, _, target, hverified.documented, hsome, hlocated⟩) (fun _ => ?_)
    fun _ w' heffect => ?_) fun _ w₁ hw₁ => ?_
  · exact ⟨(), _, ⟨hlocated.other, _, hleaf, rfl⟩, trivial⟩
  · obtain ⟨-, child, hchild, rfl⟩ := heffect
    obtain rfl := Option.some.inj (hleaf.symm.trans hchild)
    rfl
  subst hw₁
  refine Achieves.bind (attains_syncTargetParent (T := fun w' => w' =
    (w.setChild leaf.bytes none).setChild (isolated id).bytes (some (.folder folder))) rfl)
    fun _ w₂ hw₂ => ?_
  subst hw₂
  have hnamed : ((w.setChild leaf.bytes none).setChild (isolated id).bytes
      (some (.folder folder))).folder? (isolated id).bytes = some folder :=
    World.folder?_of_children _ (World.children_setChild_self _ _ _)
  refine Finds.andThen (finds_openTargetDirectory fun _ => ⟨_, _, .child hnamed⟩)
    fun moved hmoved => ?_
  obtain ⟨found, hfound, hidentity, hdevice⟩ := Site.at_path.mp hmoved.2
  obtain rfl := Option.some.inj (hnamed.symm.trans hfound)
  refine Finds.andThen (finds_ensure fun _ => ?_) fun _ _ => ?_
  · rw [TargetDirectory.sameIdentityAndDevice, ← hidentity, ← hdevice, hstands.identity,
      hstands.device]
    simp
  refine Program.achieves_pure ⟨hmoved.1, ⟨⟨folder, hmoved.1, hnamed, hidentity, hdevice⟩, ?_, ?_,
    fun _ => hsome⟩, (hcleared.setChild (.inl rfl)).setChild (.inr rfl), _, hleaf, rfl⟩
  · rw [← hidentity, hstands.identity]
    exact hlocated.identity
  · change ((w.setChild leaf.bytes none).setChild _ _).children leaf.bytes = none
    rw [World.children_setChild_of_ne _ _ hlocated.leaf_ne]
    exact World.children_setChild_self w _ _

/-- What `remove_workspace` knows once the target is isolated: the target is at its isolated path
and had been at one of its two, and no entry of another name has changed. -/
structure Isolation (toml : TomlLibrary) (site : Site κ) (leaf : FileName) (id : WorkspaceId)
    (calm : Bool) (w w' : World κ) (ownership : WorkspaceOwnership)
    (isolated' : RegisteredTarget × TargetDirectory) : Prop where
  sound : Sound site leaf id calm isolated'.1
  path : isolated'.2.path = (site.path (isolated id)).asBytes
  cleared : Cleared id w'
  documented : Documented toml w' id isolated'.1.ownership
  ownership : isolated'.1.ownership = ownership ∨
    isolated'.1.ownership = isolate site id ownership
  located : calm = true → Located site leaf id w' isolated'.1.ownership isolated'.2 true
  children : ∀ name, name ≠ leaf.bytes → name ≠ (isolated id).bytes →
    w'.children name = w.children name
  target : ∀ folder, w'.folder? (isolated id).bytes = some folder →
    ∃ atIsolatedPath, w.folder? (place leaf id atIsolatedPath).bytes = some folder
  documents : ∀ name, name ≠ .ownership id → w'.documents name = w.documents name

/-- A target that is isolated already stays so, and any other is isolated.  Where it has to be
moved, the path is registered before the rename, so that a run that stops between the two is found
by the next one. -/
theorem attains_isolateOnce {registered : RegisteredTarget} {target : TargetDirectory}
    {atIsolatedPath : Bool} (hsound : Sound site leaf id calm registered)
    (hdocumented : Documented toml w id registered.ownership)
    (hpath : target.path = (site.path (place leaf id atIsolatedPath)).asBytes)
    (hcleared : Cleared id w)
    (hcalm : calm = true → Located site leaf id w registered.ownership target atIsolatedPath ∧
      (registered.ownership.isolatedPath = none →
        Encodable toml site id registered.ownership ∧ Stageable w)) :
    Attains euid site calm (permitted site leaf id toml)
      (fun isolated' w' => Isolation toml site leaf id calm w w' registered.ownership isolated')
      (isolateOnce toml registered target atIsolatedPath) w := by
  cases atIsolatedPath with
  | true =>
    exact ⟨hsound, hpath, hcleared, hdocumented, .inl rfl, fun h => (hcalm h).1, fun _ _ _ => rfl,
      fun folder hfolder => ⟨true, hfolder⟩, fun _ _ => rfl⟩
  | false =>
    refine Achieves.bind (attains_registerIsolation hsound hdocumented fun h hnone =>
      (hcalm h).2 hnone) fun registered' w₁ h₁ => ?_
    have hchildren : ∀ name, w₁.children name = w.children name := congrFun h₁.children
    have htarget : registered'.ownership.target = registered.ownership.target := by
      rcases h₁.ownership with hsame | hsame
      · rw [hsame]
      · rw [hsame]
        rfl
    have hcleared₁ : Cleared id w₁ := fun kind => (hchildren _).trans (hcleared kind)
    refine Achieves.bind (attains_isolateTarget h₁.sound h₁.isSome hpath hcleared₁ fun h => ?_)
      fun moved w₂ h₂ => ?_
    · have hat : Located site leaf id w₁ registered.ownership target false :=
        (hcalm h).1.congr_children fun _ => hchildren _
      obtain ⟨hstands, hidentity, hother, -⟩ := hat
      exact ⟨h₁.documented, false, hstands, hidentity.trans htarget.symm, hother, nofun⟩
    · obtain ⟨hmoved, hlocated, hcleared₂, child, hchild, rfl⟩ := h₂
      refine Program.achieves_pure ⟨h₁.sound, hmoved, hcleared₂, h₁.documented, h₁.ownership,
        fun _ => hlocated, ?_, ?_, h₁.documents⟩
      · intro name hleaf hisolated
        rw [World.children_setChild_of_ne _ _ hisolated, World.children_setChild_of_ne _ _ hleaf]
        exact hchildren name
      · intro folder hfolder
        have hmovedChild := World.children_of_folder? _ hfolder
        rw [World.children_setChild_self] at hmovedChild
        refine ⟨false, World.folder?_of_children _ ?_⟩
        rw [← hmovedChild, ← hchild]
        exact (hchildren leaf.bytes).symm

/-! ### Removing the target

The isolated target is emptied by the call on its contents, under a check of the scope, and
then removed. -/

/-- The isolated target is emptied and then removed, and nothing else with it.  The order is that
of the source: verify, empty, verify again, remove the empty directory and sync its parent.  The
other name is free because the target was located under this one. -/
theorem attains_removeIsolated {registered : RegisteredTarget} {target : TargetDirectory}
    (hsound : Sound site leaf id calm registered)
    (hpath : target.path = (site.path (isolated id)).asBytes) (hcleared : Cleared id w)
    (hcalm : calm = true → Verified toml site leaf id w registered.ownership target ∧
      ∀ folder, w.folder? (isolated id).bytes = some folder → site.removable folder.contents) :
    Attains euid site calm (permitted site leaf id toml)
      (fun _ w' => w' = w.setChild (isolated id).bytes none ∧ w.children leaf.bytes = none)
      (removeIsolated toml registered target) w := by
  unfold removeIsolated
  rw [hsound.isolatedPath]
  refine Finds.andThen (finds_verifySelectedTarget hsound hpath fun h => (hcalm h).1)
    fun _ hverified => ?_
  obtain ⟨found, hlocated⟩ := hverified.located
  obtain rfl := hlocated.eq_place true hpath
  obtain ⟨folder, hstands⟩ := hlocated.stands
  refine Achieves.bind (attains_removeRootContents
    (finds_verifySelectedTarget hsound hpath fun _ => hverified)
    (fun _ => ⟨_, _, folder, hverified.documented, .target hlocated hcleared, hstands⟩) hstands
    fun h => (hcalm h).2 folder hstands.named) fun rootEntries w₁ hw₁ => ?_
  have hemptied := hstands.emptied site.empty
  rw [show (place leaf id true).bytes = (isolated id).bytes from rfl] at hw₁ hemptied
  subst hw₁
  have hcleared₁ : Cleared id (w.setChild (isolated id).bytes
      (some (.folder { folder with contents := site.empty }))) := hcleared.setChild (.inr rfl)
  have hlocated₁ : Located site leaf id (w.setChild (isolated id).bytes
      (some (.folder { folder with contents := site.empty }))) registered.ownership target true :=
    ⟨⟨_, hemptied⟩, hlocated.identity,
      (World.children_setChild_of_ne w _ hlocated.leaf_ne).trans hlocated.other,
      hlocated.registered⟩
  refine Finds.andThen (finds_verifySelectedTarget hsound hpath fun _ =>
    ⟨hverified.documented.congr rfl, true, hlocated₁⟩) fun _ hverified₁ => ?_
  refine Finds.andThen finds_fileName fun name hname => ?_
  subst hname
  refine Achieves.bind (attains_callOr (P := fun _ w' => w' = w.setChild (isolated id).bytes none)
    (.inr ⟨_, _, hverified₁.documented, .target hlocated₁ hcleared₁, rfl⟩)
    (fun _ => ⟨(), _, ⟨⟨_, hemptied.named, rfl⟩, rfl⟩, trivial⟩) fun _ w' heffect => ?_)
    fun _ w₂ hw₂ => ?_
  · rw [heffect.2, World.setChild_setChild]
  refine Achieves.bind (attains_syncTargetParent (T := fun w' =>
    w' = w.setChild (isolated id).bytes none) hw₂) fun _ w₃ hw₃ => ?_
  exact Program.achieves_pure ⟨hw₃, hlocated.other⟩

/-! ### The end of a removal

A removal looks once more before it reports success: neither name of the target has an
entry, nor has any sibling. -/

/-- The check that a name is gone finds it gone; in a quiet world it passes where it is.  The
answer that nothing is there is the only one that passes, and the parent is checked before and
after it. -/
theorem finds_requireMissingChild {parent : TargetDirectory} {path : AbsolutePath}
    {name : List UInt8} (hpath : parent.path = path.asBytes)
    (hat : site.At w path parent.identity parent.device)
    (hcalm : calm = true → w.children name = none) :
    Finds euid site calm (fun _ => w.children name = none) (requireMissingChild parent name) w := by
  refine Finds.bind (finds_revalidate hpath fun _ => hat) fun _ _ => ?_
  refine Program.safe_perform_bind.mpr ⟨trivial, fun r w' hstep => ?_⟩
  obtain rfl := step_reads euid site (c := .statat name) trivial hstep
  cases r with
  | ok stat =>
    obtain ⟨⟨-, child, hchild, -⟩, -⟩ := hstep
    refine finds_throw fun h => ?_
    rw [hcalm h] at hchild
    cases hchild
  | error e =>
    cases e with
    | noent => exact (finds_revalidate hpath fun _ => hat).mono fun _ _ => hstep.1
    | exist | other =>
      refine finds_throw fun h => ?_
      have happarent := (hstep.2.2 h).2.2
      cases happarent

/-- The last checks of a removal find neither of the target's names, and the ownership as it was.
The parent is checked to be where it was, then both names and last the document, which a removal
leaves in place. -/
theorem finds_confirmRemoved {registered : RegisteredTarget}
    (hsound : Sound site leaf id calm registered)
    (hcalm : calm = true → w.children (isolated id).bytes = none ∧ w.children leaf.bytes = none ∧
      Documented toml w id registered.ownership) :
    Finds euid site calm (fun _ => w.children (isolated id).bytes = none ∧
      w.children leaf.bytes = none ∧ Documented toml w id registered.ownership)
      (confirmRemoved toml registered id) w := by
  unfold confirmRemoved
  rw [hsound.isolatedPath, hsound.targetPath]
  refine Finds.bind (finds_callOr trivial fun _ => ⟨(), w, rfl, trivial⟩) fun _ _ => ?_
  refine Finds.bind (finds_revalidate hsound.parent_path fun _ => hsound.parent_at) fun _ _ => ?_
  refine Finds.bind (finds_requireBtrfsMount hsound.parent_path fun h =>
    ⟨hsound.parent_at, hsound.mounted h⟩) fun _ _ => ?_
  refine Finds.bind finds_fileName fun isolatedName hisolated => ?_
  subst hisolated
  refine Finds.bind (finds_requireMissingChild hsound.parent_path hsound.parent_at fun h =>
    (hcalm h).1) fun _ hgone => ?_
  refine Finds.bind finds_fileName fun targetName htarget => ?_
  subst htarget
  refine Finds.bind (finds_requireMissingChild hsound.parent_path hsound.parent_at fun h =>
    (hcalm h).2.1) fun _ hleaf => ?_
  refine Finds.bind (finds_readWorkspaceOwnership fun h => ⟨_, (hcalm h).2.2⟩)
    fun current hcurrent => ?_
  refine Finds.bind (finds_ensure fun h => (hcalm h).2.2.unique hcurrent) fun _ hsame => ?_
  rw [hsame] at hcurrent
  exact (finds_callOr (c := .layout) trivial fun _ => ⟨(), w, rfl, trivial⟩).mono fun _ _ =>
    ⟨hgone, hleaf, hcurrent⟩

/-! ### The whole removal

The parts in sequence, in any world and in a quiet one.  `Resumable` is the state in which
each part finds what it needs; every part leaves it to the next. -/

/-- A state from which a removal comes to its end. -/
structure Resumable (toml : TomlLibrary) (site : Site κ) (leaf : FileName) (layout : Layout)
    (reservation : WorkspaceReservation) (w : World κ) (ownership : WorkspaceOwnership) :
    Prop where
  unreserved : Unreserved leaf reservation.workspaceId
  documented : Documented toml w reservation.workspaceId ownership
  recorded : Recorded site layout reservation ownership
  located : ∃ directory atIsolatedPath,
    Located site leaf reservation.workspaceId w ownership directory atIsolatedPath
  removable : ∀ atIsolatedPath folder,
    w.folder? (place leaf reservation.workspaceId atIsolatedPath).bytes = some folder →
      site.removable folder.contents
  spent : ∀ kind, Spent site reservation.workspaceId w ownership kind
  registrable : ownership.isolatedPath = none →
    Encodable toml site reservation.workspaceId ownership ∧ Stageable w

/-- What a removal leaves: none of the four names, and all else as it was, but that the ownership
may have the path of the isolation. -/
structure Removed (toml : TomlLibrary) (site : Site κ) (leaf : FileName) (id : WorkspaceId)
    (w w' : World κ) (ownership : WorkspaceOwnership) : Prop where
  gone : ∀ name, name = leaf.bytes ∨ name ∈ Application.siblingNames id → w'.children name = none
  kept : ∀ name, name ≠ leaf.bytes → name ∉ Application.siblingNames id →
    w'.children name = w.children name
  documents : ∀ name, name ≠ .ownership id → w'.documents name = w.documents name
  documented : Documented toml w' id ownership ∨ Documented toml w' id (isolate site id ownership)

/-- A sibling is an operation directory or the isolated target.  This connects the list of names in
the abstract permission with the names that the model of the directories computes. -/
theorem mem_siblingNames_iff {name : List UInt8} : name ∈ Application.siblingNames id ↔
    (∃ kind : OperationKind, name = (kind.name id).bytes) ∨ name = (isolated id).bytes := by
  constructor
  · intro h
    simp only [Application.siblingNames, List.mem_cons, List.not_mem_nil, or_false] at h
    rcases h with rfl | rfl | rfl
    · exact .inl ⟨.staging, rfl⟩
    · exact .inl ⟨.trash, rfl⟩
    · exact .inr rfl
  · rintro (⟨kind, rfl⟩ | rfl)
    · exact kind.name_mem id
    · exact isolatedName_mem id

/-- The world without the operation directories, as a removal leaves it before the target goes. -/
def withoutOperations (id : WorkspaceId) (w : World κ) : World κ :=
  (w.setChild (OperationKind.name id .staging).bytes none).setChild
    (OperationKind.name id .trash).bytes none

/-- A world without the operation directories is cleared. -/
theorem cleared_withoutOperations (id : WorkspaceId) (w : World κ) :
    Cleared id (withoutOperations id w) := by
  intro kind
  cases kind with
  | staging =>
    change ((w.setChild _ none).setChild _ none).children _ = none
    rw [World.children_setChild_of_ne _ _ (name_staging_ne_trash id).symm]
    exact World.children_setChild_self w _ _
  | trash => exact World.children_setChild_self _ _ _

/-- Every other entry is as it was. -/
theorem children_withoutOperations {name : List UInt8}
    (h : ∀ kind : OperationKind, name ≠ (kind.name id).bytes) :
    (withoutOperations id w).children name = w.children name := by
  change ((w.setChild _ none).setChild _ none).children _ = _
  rw [World.children_setChild_of_ne _ _ (h .trash), World.children_setChild_of_ne _ _ (h .staging)]

/-- Whether an operation directory can be removed depends on its own entry alone. -/
theorem Spent.congr {w' : World κ} {kind : OperationKind} (h : Spent site id w ownership kind)
    (hkept : w'.children (kind.name id).bytes = w.children (kind.name id).bytes) :
    Spent site id w' ownership kind := by
  rcases h with hnone | ⟨folder, hfolder, h⟩
  · exact .inl (hkept.trans hnone)
  · exact .inr ⟨folder, (w.folder?_congr hkept).trans hfolder, h⟩

/-- **The rule of a removal.**  In any world a removal makes only permitted calls, and where it
returns it has removed the target and both operation directories, and nothing else.  In a quiet
world it returns from every state that is resumable.  The parts are put together in the order of
the source: locate the target, remove the two operation directories, isolate the target, empty and
remove it, and confirm.  Each part keeps what makes the next one permitted. -/
theorem attains_removeWorkspace {layout : Layout} {reservation : WorkspaceReservation}
    (htarget : reservation.targetPath = site.path leaf)
    (hcalm : calm = true → ∃ ownership, Resumable toml site leaf layout reservation w ownership) :
    Attains euid site calm (permitted site leaf reservation.workspaceId toml)
      (fun _ w' => ∃ ownership,
      Documented toml w reservation.workspaceId ownership ∧
        Removed toml site leaf reservation.workspaceId w w' ownership)
      (removeWorkspace euid toml layout reservation) w := by
  refine Finds.andThen (finds_callOr trivial fun _ => ⟨(), w, rfl, trivial⟩) fun _ _ => ?_
  refine Finds.andThen (finds_callOr trivial fun _ => ⟨(), w, rfl, trivial⟩) fun _ _ => ?_
  refine Finds.andThen (finds_registeredTarget htarget fun h => ?_) fun registered hregistered => ?_
  · obtain ⟨ownership, hresumable⟩ := hcalm h
    exact ⟨ownership, hresumable.documented, hresumable.recorded⟩
  obtain ⟨hdocumented, hsound, -⟩ := hregistered
  have hresumable : calm = true →
      Resumable toml site leaf layout reservation w registered.ownership := by
    intro h
    obtain ⟨ownership, hown⟩ := hcalm h
    obtain rfl := hdocumented.unique hown.documented
    exact hown
  refine Finds.andThen (finds_locateTarget hsound fun h => .inr (hresumable h).located)
    fun located hlocated => ?_
  refine Finds.andThen (finds_orMissing fun h => ?_) fun target htargetFound => ?_
  · rintro rfl
    obtain ⟨directory, atIsolatedPath, hat⟩ := (hresumable h).located
    obtain ⟨folder, hstands⟩ := hat.stands
    have hchild := World.children_of_folder? w hstands.named
    rw [hlocated atIsolatedPath] at hchild
    cases hchild
  obtain ⟨target, atIsolatedPath⟩ := target
  rw [htargetFound] at hlocated
  have hat : Located site leaf reservation.workspaceId w registered.ownership target
    atIsolatedPath := hlocated
  obtain ⟨folder, hstands⟩ := hat.stands
  have hverified : Verified toml site leaf reservation.workspaceId w registered.ownership target :=
    ⟨hdocumented, atIsolatedPath, hat⟩
  refine Achieves.bind (attains_removeOperationDirectory hsound hstands.path fun h =>
    ⟨(hresumable h).unreserved, hverified, (hresumable h).spent .staging⟩) fun _ w₁ hw₁ => ?_
  subst hw₁
  refine Achieves.bind (attains_removeOperationDirectory hsound hstands.path fun h =>
    ⟨(hresumable h).unreserved, ?_, ?_⟩) fun _ w₂ hw₂ => ?_
  · exact hverified.congr rfl fun at' =>
      World.children_setChild_of_ne w _ ((hresumable h).unreserved.place_ne .staging at')
  · exact ((hresumable h).spent .trash).congr
      (World.children_setChild_of_ne w _ (name_staging_ne_trash _))
  have hcleared := cleared_withoutOperations reservation.workspaceId w
  rw [show w₂ = withoutOperations reservation.workspaceId w from hw₂]
  have hkept : calm = true → ∀ at', (withoutOperations reservation.workspaceId w).children
      (place leaf reservation.workspaceId at').bytes =
        w.children (place leaf reservation.workspaceId at').bytes := fun h at' =>
    children_withoutOperations fun kind => (hresumable h).unreserved.place_ne kind at'
  refine Achieves.bind (attains_isolateOnce hsound (hdocumented.congr rfl) hstands.path hcleared
    fun h => ⟨hat.congr_children (hkept h), fun hnone => ?_⟩) fun isolated' w₃ h₃ => ?_
  · obtain ⟨hencodable, uuid, hfree⟩ := (hresumable h).registrable hnone
    exact ⟨hencodable, uuid, hfree⟩
  refine Achieves.bind (attains_removeIsolated h₃.sound h₃.path h₃.cleared fun h =>
    ⟨⟨h₃.documented, true, h₃.located h⟩, fun folder' hfolder' => ?_⟩) fun rootEntries w₄ h₄ => ?_
  · obtain ⟨at', hbefore⟩ := h₃.target folder' hfolder'
    rw [World.folder?_congr w (hkept h at')] at hbefore
    exact (hresumable h).removable at' folder' hbefore
  obtain ⟨rfl, hleaf⟩ := h₄
  have hdocumented₄ : Documented toml (w₃.setChild (isolated reservation.workspaceId).bytes none)
    reservation.workspaceId isolated'.1.ownership := h₃.documented.congr rfl
  refine Finds.andThen (finds_confirmRemoved h₃.sound fun h =>
    ⟨World.children_setChild_self _ _ _, ?_, hdocumented₄⟩) fun _ hconfirmed => ?_
  · rw [World.children_setChild_of_ne _ _ (h₃.located h).leaf_ne]
    exact hleaf
  refine Program.achieves_pure ⟨registered.ownership, hdocumented, ?_, ?_, h₃.documents, ?_⟩
  · rintro name (rfl | hname)
    · exact hconfirmed.2.1
    · rcases mem_siblingNames_iff.mp hname with ⟨kind, rfl⟩ | rfl
      · exact h₃.cleared.setChild (.inl rfl) kind
      · exact World.children_setChild_self _ _ _
  · intro name hname hsibling
    have hkinds : ∀ kind : OperationKind, name ≠ (kind.name reservation.workspaceId).bytes :=
      fun kind he => hsibling (he ▸ kind.name_mem _)
    have hisolated : name ≠ (isolated reservation.workspaceId).bytes :=
      fun he => hsibling (he ▸ isolatedName_mem _)
    rw [World.children_setChild_of_ne _ _ hisolated, h₃.children name hname hisolated,
      children_withoutOperations hkinds]
  · rcases h₃.ownership with hsame | hsame
    · exact .inl (hsame ▸ hdocumented₄)
    · exact .inr (hsame ▸ hdocumented₄)

end Lifecycle
end ThinWorkspace
