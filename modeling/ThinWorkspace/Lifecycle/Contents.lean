/-
# The removal of contents, call by call

`LifecycleCall.removeContents` is one call, and `remove_root_contents` behind it many.  `Destroy`
models those, over a file system of objects with entries.  Here the two meet.  A world of
`Lifecycle` `Mirrors` a directory of such a file system where it has the same entries, each with
what lies in it, and a `HeldEntry` is the open directory whose contents are removed.

`removeContents_simulated` is the result: what a run of `remove_root_contents` does that others
leave alone is one step of the call, and whenever the run is stopped the call has had a part of
its effect.
-/

import ThinWorkspace.Destroy.Alone
import ThinWorkspace.Lifecycle.Calls

namespace ThinWorkspace
namespace Lifecycle

open ThinWorkspace.Core Lib Ports Program
open Btrfs (Fd)
open Destroy (Object Place Scene Reaches Thins)

/-! ### One directory in two models

A directory is a list of names here and a graph of objects in the model of the removal.
`Mirrors` relates the two; what happens below one entry is a change of the contents of that
entry. -/

/-- What lies in a directory of the file system: its names, and the objects they name. -/
abbrev Contents := List (FileName × ℕ)

/-- The entry is that object: a directory with its contents, or something else with its
identity. -/
def Depicts (object : Object) : Child Contents → Prop
  | .folder folder => object.kind = .directory ∧ folder.device = object.device ∧
      folder.identity.inode = object.inode ∧ folder.contents = object.entries
  | .other stat => object.kind ≠ .directory ∧ stat.kind ≠ .directory ∧
      stat.identity = object.identity

/-- The entry is what the number stands for in the file system. -/
def DepictsAt (tree : Destroy.World) (i : ℕ) (child : Child Contents) : Prop :=
  ∃ object, tree.objects i = some object ∧ Depicts object child

/-- The entries of the world are those of the directory `parent`. -/
structure Mirrors (tree : Destroy.World) (parent : ℕ) (w : World Contents) : Prop where
  entries : ∃ directory, tree.objects parent = some directory ∧
    ∀ name : FileName, Option.Rel (DepictsAt tree) (directory.entries.lookup name)
      (w.children name.bytes)

/-- The handle is one of the entry of that name, with nothing mounted over it.  Neither the parent
nor a directory beside the entry lies below it. -/
structure HeldEntry (tree : Destroy.World) (parent : ℕ) (root : Fd) (name : FileName)
    (top : Place) : Prop where
  held : tree.handles root = some top
  named : ∀ directory, tree.objects parent = some directory →
    directory.entries.lookup name = some top.object
  above : ¬Reaches tree top.object parent
  beside : ∀ directory other i object, tree.objects parent = some directory →
    directory.entries.lookup other = some i → other ≠ name → tree.objects i = some object →
    object.kind = .directory → ¬Reaches tree top.object i

variable {tree tree' : Destroy.World} {parent : ℕ} {root : Fd} {name : FileName} {top : Place}
variable {w : World Contents} {folder : Folder Contents} {object : Object}

/-- An object that has lost entries is the folder with those that are left. -/
theorem depicts_loses {before : Object} (h : Depicts before (.folder folder))
    (hloses : before.Loses object) :
    Depicts object (.folder { folder with contents := object.entries }) := by
  obtain ⟨hkind, hdevice, hinode, -⟩ := h
  obtain ⟨hdevice', hinode'⟩ := FileIdentity.mk.inj hloses.identity
  exact ⟨hloses.kind.trans hkind, hdevice.trans hdevice'.symm, hinode.trans hinode'.symm, rfl⟩

/-- **What has happened below one entry** is a change of its contents, and of nothing else. -/
theorem Mirrors.thins (h : Mirrors tree parent w) (hentry : HeldEntry tree parent root name top)
    (hfolder : w.folder? name.bytes = some folder) (hthins : Thins top.object tree tree')
    (hobject : tree'.objects top.object = some object) :
    Mirrors tree' parent
      (w.setChild name.bytes (some (.folder { folder with contents := object.entries }))) := by
  obtain ⟨directory, hdirectory, hrel⟩ := h.entries
  refine ⟨directory, hthins.keeps _ _ hdirectory fun _ => hentry.above, fun other => ?_⟩
  have hother := hrel other
  by_cases hname : other = name
  · subst hname
    rw [hentry.named directory hdirectory, w.children_of_folder? hfolder] at hother
    rw [hentry.named directory hdirectory, World.children_setChild_self]
    cases hother with
    | some hdepicts =>
      obtain ⟨before, hbefore, hdepicts⟩ := hdepicts
      obtain ⟨after, hafter, hloses⟩ := hthins.loses _ _ hbefore
      obtain rfl : object = after := Option.some.inj (hobject.symm.trans hafter)
      exact .some ⟨object, hobject, depicts_loses hdepicts hloses⟩
  · have hbytes : other.bytes ≠ name.bytes := fun heq => hname (FileName.ext heq)
    rw [World.children_setChild_of_ne w _ hbytes]
    generalize hlookup : directory.entries.lookup other = found at hother ⊢
    generalize w.children other.bytes = child at hother ⊢
    cases hother with
    | none => exact .none
    | some hdepicts =>
      obtain ⟨before, hbefore, hdepicts⟩ := hdepicts
      refine .some ⟨before, hthins.keeps _ _ hbefore fun hkind => ?_, hdepicts⟩
      exact hentry.beside directory other _ before hdirectory hlookup hname hbefore hkind

/-- The held entry is the folder of the world. -/
theorem Mirrors.held (h : Mirrors tree parent w) (hentry : HeldEntry tree parent root name top)
    (hfolder : w.folder? name.bytes = some folder) :
    ∃ object, tree.objects top.object = some object ∧ Depicts object (.folder folder) := by
  obtain ⟨directory, hdirectory, hrel⟩ := h.entries
  have hname := hrel name
  rw [hentry.named directory hdirectory, w.children_of_folder? hfolder] at hname
  cases hname with
  | some hdepicts => exact hdepicts

/-! ### The run and the call

A run of the removal that others leave alone empties the directory and changes nothing else.
So it returns what the call returns, and leaves what the call leaves; a run that was stopped
has had a part of the effect. -/

section Simulation

variable {euid : UInt32} {site : Site Contents} {directory : TargetDirectory} {mountId : UInt64}
variable {s : Scene}

/-- `remove_root_contents` of the held entry, call by call. -/
abbrev removal (root : Fd) (directory : TargetDirectory) (mountId : UInt64) :
    Destroy.OnLinux.Removal ℕ :=
  Destroy.OnLinux.removeRootContents root directory.fileIdentity mountId

/-- **Stopped at any moment,** the removal has had a part of the call's effect. -/
theorem removeContents_partly (hstands : site.Stands w directory name folder)
    (hmirrors : Mirrors tree parent w) (hentry : HeldEntry tree parent root name top)
    (run : Visits (Destroy.alone Destroy.OnLinux.Shows) (removal root directory mountId)
      (.start tree) s) :
    ∃ w', Mirrors s.world parent w' ∧
      (LifecycleCall.removeContents directory mountId).partialEffect site w w' := by
  have hthins := ((Destroy.removeRootContents_alone hentry.held directory.fileIdentity).1
    mountId).thins s run
  obtain ⟨before, hbefore, -⟩ := hmirrors.held hentry hstands.named
  obtain ⟨object, hobject, -⟩ := hthins.loses _ _ hbefore
  exact ⟨_, hmirrors.thins hentry hstands.named hthins hobject, name, folder, object.entries,
    hstands, rfl⟩

/-- **The call is what the run does.**  A run of `remove_root_contents` that others leave alone
returns as the call may, and leaves a file system that mirrors the world the call may leave.  The
site's `empty` is the directory without entries, and its `removable` must hold of contents that
some run has removed. -/
theorem removeContents_simulated (hempty : site.empty = [])
    (hremovable : ∀ n s, Returns (Destroy.alone Destroy.OnLinux.Shows)
      (removal root directory mountId) (.start tree) (.ok n) s → site.removable folder.contents)
    (hstands : site.Stands w directory name folder) (hmirrors : Mirrors tree parent w)
    (hentry : HeldEntry tree parent root name top) {r : Except PortError ℕ}
    (run : Returns (Destroy.alone Destroy.OnLinux.Shows) (removal root directory mountId)
      (.start tree) r s) :
    ∃ w', Mirrors s.world parent w' ∧
      (faulty euid site).step w (.removeContents directory mountId) r w' := by
  cases r with
  | error e =>
    obtain ⟨w', hw', hpart⟩ := removeContents_partly hstands hmirrors hentry run.visits
    exact ⟨w', hw', trivial, .inr (.inr hpart), Bool.noConfusion⟩
  | ok n =>
    have halone := (Destroy.removeRootContents_alone hentry.held directory.fileIdentity).1 mountId
    obtain ⟨object, hobject, hentries⟩ := halone.empty n s run
    have hafter := hmirrors.thins hentry hstands.named (halone.thins s run.visits) hobject
    refine ⟨_, hafter, ⟨name, folder, hstands, hremovable n s run, ?_⟩, Bool.noConfusion⟩
    rw [hentries, hempty]

end Simulation

/-! ### A directory with one file

A directory with one file in both models, and a run of the removal on it. -/

section Sample

open Destroy (nameA worldOf)

/-- A directory that holds a file `a` and is held, its parent, where it is called `a` as well, and
the file. -/
def filledObjects : List Object :=
  [⟨1, 257, .directory, [(nameA, 2)], List.nodup_singleton nameA⟩,
    ⟨1, 256, .directory, [(nameA, 0)], List.nodup_singleton nameA⟩,
    ⟨1, 258, .regularFile, [], List.nodup_nil⟩]

/-- The identities of the sample objects differ. -/
theorem nodup_filledObjects : (filledObjects.map Object.identity).Nodup := by decide

/-- The file system of these objects, with nothing mounted and nothing held. -/
def filledTree : Destroy.World := worldOf filledObjects nodup_filledObjects (List.cons_ne_nil _ _)

/-- The folder is that directory, with the one entry that lies in it. -/
def filledFolder : Folder Contents := ⟨1, ⟨257, 0, 0⟩, true, [(nameA, 2)]⟩

/-- The world with this folder in it, and with no document. -/
def filledWorld : World Contents where
  children name := if name = nameA.bytes then some (.folder filledFolder) else none
  documents _ := none

/-- Only the directory and its file lie below it. -/
theorem reaches_filledTree {i : ℕ} (h : Reaches filledTree 0 i) : i = 0 ∨ i = 2 := by
  induction h with
  | here => exact .inl rfl
  | entry above hobject hmem ih =>
    rcases ih with rfl | rfl
    · obtain rfl := Option.some.inj hobject
      exact .inr (Prod.mk.inj (List.mem_singleton.mp hmem)).2
    · obtain rfl := Option.some.inj hobject
      cases hmem
  | mounted above hmounted ih => cases hmounted

/-- The handle of the sample is one of its directory. -/
theorem heldEntry_filledTree : HeldEntry filledTree 1 3 nameA ⟨7, 0⟩ where
  held := rfl
  named := by
    rintro directory hdirectory
    obtain rfl := Option.some.inj hdirectory
    rfl
  above := by
    intro hreaches
    rcases reaches_filledTree hreaches with h | h
    · cases h
    · cases h
  beside := by
    intro directory other i object hdirectory hlookup hne
    obtain rfl := Option.some.inj hdirectory
    exact absurd (Prod.mk.inj (List.mem_singleton.mp (Destroy.mem_of_lookup hlookup))).1 hne

/-- The sample world shows the sample file system. -/
theorem mirrors_filledTree : Mirrors filledTree 1 filledWorld := by
  refine ⟨_, rfl, fun name => ?_⟩
  by_cases hname : name = nameA
  · subst hname
    exact .some ⟨_, rfl, rfl, rfl, rfl, rfl⟩
  · have hbytes : name.bytes ≠ nameA.bytes := fun heq => hname (FileName.ext heq)
    have hlookup : ([(nameA, 0)] : Contents).lookup name = none := by
      rw [List.lookup_cons, beq_eq_false_iff_ne.mpr hname]
      rfl
    have hchild : filledWorld.children name.bytes = none := if_neg hbytes
    rw [hchild]
    exact hlookup ▸ .none

/-- The directory of the world is removed from by such a run: it returns that one entry is gone, and
the call leaves the folder empty. -/
theorem removeContents_simulated_filled (site : Site Contents) (hempty : site.empty = [])
    (hremovable : ∀ contents, site.removable contents) (euid : UInt32) :
    ∃ s w', Returns (Destroy.alone Destroy.OnLinux.Shows)
        (removal 3 ⟨(site.path nameA).asBytes, ⟨257, 0, 0⟩, 1⟩ 7) (.start filledTree) (.ok 1) s ∧
      Mirrors s.world 1 w' ∧
      (faulty euid site).step filledWorld
        (.removeContents ⟨(site.path nameA).asBytes, ⟨257, 0, 0⟩, 1⟩ 7) (.ok 1) w' := by
  have hok : (Destroy.runWith Destroy.OnLinux.nodeOf Destroy.nobody
      (Destroy.OnLinux.removeRootContents 3 ⟨1, 257⟩ 7) filledTree).1.toOption = some 1 := by
    decide +kernel
  have hrun : Returns (Destroy.alone Destroy.OnLinux.Shows)
      (Destroy.OnLinux.removeRootContents 3 ⟨1, 257⟩ 7) (.start filledTree)
      (Destroy.runWith Destroy.OnLinux.nodeOf Destroy.nobody
        (Destroy.OnLinux.removeRootContents 3 ⟨1, 257⟩ 7) filledTree).1 _ :=
    returns_execute (Destroy.acts_respond Destroy.OnLinux.shows_nodeOf) _ _
  rw [Destroy.ok_of_toOption hok] at hrun
  have hstands : site.Stands filledWorld ⟨(site.path nameA).asBytes, ⟨257, 0, 0⟩, 1⟩ nameA
      filledFolder := ⟨rfl, rfl, rfl, rfl⟩
  obtain ⟨w', hmirrors, hstep⟩ := removeContents_simulated hempty (fun _ _ _ => hremovable _)
    hstands mirrors_filledTree heldEntry_filledTree hrun
  exact ⟨_, w', hrun, hmirrors, hstep⟩

end Sample

end Lifecycle
end ThinWorkspace
