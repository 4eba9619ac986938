/-
# The directory of a workspace, and what is done there

Source: `crates/thinws-adapter-linux/src/workspace.rs`, over `control.rs`, `publication.rs`,
`probe.rs` and `destroy.rs`.

A `Site` is the directory in which a workspace is created, on its Btrfs volume and mount.  A
`World` holds the entries of this directory and the documents of the metadata directory.  A
`LifecycleCall` is one system call there, or one function of another module: a check of the
lock or of the layout, a step of a document's publication, a probe of a path, the removal of
what lies in a directory.  The last is many system calls; `Contents` shows that the run of
them which `Destroy` models is one step of this call.

In `faulty` a call that fails has had its effect or a part of it, or none, and a probe may
report any volume and mount.  In `quiet` a call fails only where it cannot succeed, and a probe
tells the truth.  In both nobody else changes anything during a run.
-/

import ThinWorkspace.Linux.Ownership
import ThinWorkspace.Linux.Publication
import ThinWorkspace.Metadata.Change
import ThinWorkspace.Prepared.Clear

namespace ThinWorkspace
namespace Lifecycle

open ThinWorkspace.Core Lib Ports
open Linux (Errno Stat HistoricalDirectoryIdentity)

/-! ### What is held

A held directory is known by its identity and by the path under which it was opened.  The
moment of birth tells a directory from a later one with its inode. -/

/-- `TargetDirectory`: a held directory and the path it was opened under. -/
structure TargetDirectory where
  path : List UInt8
  identity : HistoricalDirectoryIdentity
  device : UInt64
deriving DecidableEq

/-- `TargetDirectory::file_identity`: the device and the inode, without the moment of birth. -/
def TargetDirectory.fileIdentity (directory : TargetDirectory) : FileIdentity :=
  ⟨directory.device, directory.identity.inode⟩

/-- `TargetDirectory::same_identity_and_device`: the very directory, its moment of birth included.
-/
def TargetDirectory.sameIdentityAndDevice (directory other : TargetDirectory) : Bool :=
  directory.identity == other.identity && directory.device == other.device

/-- A name in the metadata directory: `ownership_name`, or that of a `PrivateTemp`. -/
inductive DocumentName where
  | ownership (id : WorkspaceId)
  | staged (stem : String) (id : UuidV7)
deriving DecidableEq

/-! ### The world

The world is the directory of the target and the documents of the control root, each a map
from names.  The lemmas are those of an update: what was set is there, and everything else
is as it was. -/

/-- A directory.  `isPrivate` says that it is ours with mode `0o700`. -/
structure Folder (κ : Type) where
  device : UInt64
  identity : HistoricalDirectoryIdentity
  isPrivate : Bool
  contents : κ
deriving DecidableEq

/-- What has a name beside the target: a directory with its contents, or anything else by its
`stat`. -/
inductive Child (κ : Type) where
  | folder (folder : Folder κ)
  | other (stat : Stat)
deriving DecidableEq

/-- The entries of the directory of a workspace, and the documents of the metadata directory. -/
structure World (κ : Type) where
  children : List UInt8 → Option (Child κ)
  documents : DocumentName → Option (List UInt8)

namespace World

variable {κ : Type} (w : World κ)

/-- The directory of that name, if there is one. -/
def folder? (name : List UInt8) : Option (Folder κ) :=
  match w.children name with
  | some (.folder folder) => some folder
  | _ => none

/-- The world with one entry set; the other entries and all documents stay. -/
def setChild (name : List UInt8) (child : Option (Child κ)) : World κ where
  children := fun other => if other = name then child else w.children other
  documents := w.documents

/-- The world with one document set; the other documents and all entries stay. -/
def setDocument (name : DocumentName) (bytes : Option (List UInt8)) : World κ where
  children := w.children
  documents := fun other => if other = name then bytes else w.documents other

/-- An entry that is set is there, under its name. -/
@[simp] theorem children_setChild_self (name : List UInt8) (child : Option (Child κ)) :
    (w.setChild name child).children name = child := if_pos rfl

/-- Setting one entry leaves the others, which is what frames the rest of the directory. -/
theorem children_setChild_of_ne {name other : List UInt8} (child : Option (Child κ))
    (h : other ≠ name) : (w.setChild name child).children other = w.children other := if_neg h

/-- Setting an entry leaves the documents, which lie in the control root. -/
@[simp] theorem documents_setChild (name : List UInt8) (child : Option (Child κ)) :
    (w.setChild name child).documents = w.documents := rfl

/-- Setting a document leaves the entries beside the target. -/
@[simp] theorem children_setDocument (name : DocumentName) (bytes : Option (List UInt8)) :
    (w.setDocument name bytes).children = w.children := rfl

/-- A document that is set is there, under its name. -/
@[simp] theorem documents_setDocument_self (name : DocumentName) (bytes : Option (List UInt8)) :
    (w.setDocument name bytes).documents name = bytes := if_pos rfl

/-- Setting one document leaves the others, those of other workspaces included. -/
theorem documents_setDocument_of_ne {name other : DocumentName} (bytes : Option (List UInt8))
    (h : other ≠ name) : (w.setDocument name bytes).documents other = w.documents other :=
  if_neg h

/-- An entry that is a directory is the folder of its name. -/
theorem folder?_of_children {name : List UInt8} {folder : Folder κ}
    (h : w.children name = some (.folder folder)) : w.folder? name = some folder := by
  rw [folder?, h]

/-- The folder of a name is the entry there. -/
theorem children_of_folder? {name : List UInt8} {folder : Folder κ}
    (h : w.folder? name = some folder) : w.children name = some (.folder folder) := by
  unfold folder? at h
  split at h
  · rename_i found hfound
    rw [hfound, Option.some.inj h]
  · cases h

/-- What folder a name has depends on its entry alone. -/
theorem folder?_congr {w' : World κ} {name : List UInt8} (h : w'.children name = w.children name) :
    w'.folder? name = w.folder? name := by
  rw [folder?, h]
  rfl

/-- Setting one entry leaves the folders of other names. -/
theorem folder?_setChild_of_ne {name other : List UInt8} (child : Option (Child κ))
    (h : other ≠ name) : (w.setChild name child).folder? other = w.folder? other :=
  w.folder?_congr (w.children_setChild_of_ne child h)

/-- An entry that is set twice is as it was set last. -/
@[simp] theorem setChild_setChild (name : List UInt8) (child child' : Option (Child κ)) :
    (w.setChild name child).setChild name child' = w.setChild name child' := by
  simp only [setChild, World.mk.injEq, and_true]
  funext other
  by_cases h : other = name
  · rw [if_pos h, if_pos h]
  · rw [if_neg h, if_neg h, if_neg h]

/-- A document that is set twice is as it was set last. -/
@[simp] theorem setDocument_setDocument (name : DocumentName) (bytes bytes' : Option (List UInt8)) :
    (w.setDocument name bytes).setDocument name bytes' = w.setDocument name bytes' := by
  simp only [setDocument, World.mk.injEq, true_and]
  funext other
  by_cases h : other = name
  · rw [if_pos h, if_pos h]
  · rw [if_neg h, if_neg h, if_neg h]

/-- Setting a document to what it is changes nothing. -/
theorem setDocument_eq_self {name : DocumentName} {bytes : Option (List UInt8)}
    (h : w.documents name = bytes) : w.setDocument name bytes = w := by
  obtain ⟨children, documents⟩ := w
  simp only [setDocument, World.mk.injEq, true_and]
  funext other
  by_cases hother : other = name
  · rw [if_pos hother, hother]
    exact h.symm
  · rw [if_neg hother]

/-- Setting an entry to what it is changes nothing. -/
theorem setChild_eq_self {name : List UInt8} {child : Option (Child κ)}
    (h : w.children name = child) : w.setChild name child = w := by
  obtain ⟨children, documents⟩ := w
  simp only [setChild, World.mk.injEq, and_true]
  funext other
  by_cases hother : other = name
  · rw [if_pos hother, hother]
    exact h.symm
  · rw [if_neg hother]

end World

/-- The directory in which a workspace is created: its path, which directory it is, its device
and mount, the directories on the way to it, whether it can be written, the contents of a directory
that holds nothing, and those that `remove_root_contents` can remove. -/
structure Site (κ : Type) where
  parent : AbsolutePath
  identity : HistoricalDirectoryIdentity
  device : UInt64
  volumeId : VolumeId
  mountId : UInt64
  ancestors : List FileIdentity
  writability : SupportState
  empty : κ
  removable : κ → Prop

namespace Site

variable {κ : Type} (site : Site κ) (w : World κ)

/-- The path of an entry, below the parent of the target. -/
def path (name : FileName) : AbsolutePath := site.parent.child name.bytes name.normal

/-- The directory that a path leads to: the parent, or an entry of it. -/
inductive At : AbsolutePath → HistoricalDirectoryIdentity → UInt64 → Prop
  | parent : At site.parent site.identity site.device
  | child {name : FileName} {folder : Folder κ} (h : w.folder? name.bytes = some folder) :
      At (site.path name) folder.identity folder.device

/-- The report is that of a directory on the site's volume and mount. -/
structure Describes (report : PathCapabilityReport) (identity : HistoricalDirectoryIdentity)
    (device : UInt64) : Prop where
  resolution : report.resolution = .existingDirectory
  last_ancestry : report.ancestry.getLast?.map (·.identity) = some ⟨device, identity.inode⟩
  ancestry : ∀ entry ∈ report.ancestry,
    entry.identity ∈ site.ancestors ∨ entry.identity = ⟨device, identity.inode⟩
  typeName : report.filesystem.typeName = "btrfs"
  volumeId : report.filesystem.volumeId.known? = some site.volumeId
  mountId : report.mount.mountId = some site.mountId
  writability : report.writability = site.writability

/-- The directory is held, and has the name under which it was opened. -/
structure Stands (directory : TargetDirectory) (name : FileName) (folder : Folder κ) : Prop where
  path : directory.path = (site.path name).asBytes
  named : w.folder? name.bytes = some folder
  identity : folder.identity = directory.identity
  device : folder.device = directory.device

end Site

/-! ### Calls

One call for each step of the adapter that the world can answer.  Emptying a directory is a
single call here; `ThinWorkspace.Lifecycle.Contents` shows that it is what the removal of
its contents does. -/

/-- A call of the outside world: a check of the control root, an access to a document, or an
operation on the entries beside the target. -/
inductive LifecycleCall where
  | dataRootLock
  | layout
  | metadataDirectory
  | readDocument (name : DocumentName)
  | stageDocument (stem : String) (bytes : List UInt8)
  | publishDocument (temporary name : DocumentName)
  | exchangeDocument (temporary name : DocumentName)
  | validateDocument (name : DocumentName)
  | removeDocument (name : DocumentName)
  | dropDocument (name : DocumentName)
  | syncDocuments
  | openTarget (path : AbsolutePath)
  | fstat (directory : TargetDirectory)
  | inspectPath (path : AbsolutePath)
  | newUuid
  | statat (name : List UInt8)
  | mkdir (name : List UInt8)
  | renameNoreplace (source target : List UInt8)
  | rmdir (name : List UInt8)
  | syncParent
  | removeContents (directory : TargetDirectory) (mountId : UInt64)
deriving DecidableEq

/-- What a call returns when it succeeds; most calls return nothing. -/
@[reducible] def LifecycleCall.Value : LifecycleCall → Type
  | .readDocument _ => Option (List UInt8)
  | .stageDocument _ _ => DocumentName
  | .openTarget _ => HistoricalDirectoryIdentity × UInt64
  | .fstat _ | .statat _ => Stat
  | .inspectPath _ => PathCapabilityReport
  | .newUuid => UuidV7
  | .metadataDirectory => Bool
  | .removeContents _ _ => ℕ
  | _ => Unit

/-- What a call fails with: the error of another module, or an `Errno`. -/
@[reducible] def LifecycleCall.Error : LifecycleCall → Type
  | .newUuid | .dropDocument _ => Empty
  | .fstat _ | .statat _ | .mkdir _ | .renameNoreplace _ _ | .rmdir _ | .syncParent
  | .removeDocument _ => Errno
  | _ => PortError

/-- What a call returns: its value, or a failure of the kind that this call has. -/
@[reducible] def LifecycleCall.Result (c : LifecycleCall) : Type := Except c.Error c.Value

/-- The call changes neither an entry nor a document. -/
def LifecycleCall.Reads : LifecycleCall → Prop
  | .stageDocument _ _ | .publishDocument _ _ | .exchangeDocument _ _ | .removeDocument _
  | .dropDocument _ | .mkdir _ | .renameNoreplace _ _ | .rmdir _ | .removeContents _ _ => False
  | _ => True

/-- A part of a workspace's life: a program over these calls that fails with a port error. -/
abbrev Handling (α : Type) := Program LifecycleCall LifecycleCall.Result PortError α

/-! ### What the calls do

What a call does when it succeeds, and what it may have done when it fails.  Two worlds are
made of this: one in which any call may fail, and a quiet one in which a call fails only
where it cannot succeed. -/

section Effects

variable {κ : Type} (euid : UInt32) (site : Site κ)

/-- `st_mode` and `st_uid` as `require_private_operation_directory` requires them: nobody but the
owner may enter. -/
def isPrivateDirectory (stat : Stat) : Bool :=
  stat.kind == .directory && stat.mode == 0o700 && stat.uid == euid

/-- The `stat` of an entry: for a directory its identity and its kind, for anything else the whole
of it. -/
def Child.Shows : Child κ → Stat → Prop
  | .folder held, stat =>
    stat.identity = ⟨held.device, held.identity.inode⟩ ∧ stat.kind = .directory
  | .other seen, stat => stat = seen

/-- The name `create_child` stages a directory under, before it takes its own. -/
def temporaryName (id : UuidV7) : List UInt8 := asBytes (".thinws-dir.tmp-" ++ id.toText)

/-- What a call that succeeds does, and what it returns. -/
def LifecycleCall.effect (w : World κ) : (c : LifecycleCall) → c.Value → World κ → Prop
  | .readDocument name, found, w' =>
    w' = w ∧ found = (w.documents name).map (·.take Linux.readLimit)
  | .stageDocument stem bytes, name, w' => ∃ id, name = .staged stem id ∧
      w.documents name = none ∧ w' = w.setDocument name (some bytes)
  | .publishDocument temporary name, _, w' => w.documents name = none ∧
      ∃ bytes, w.documents temporary = some bytes ∧
        w' = (w.setDocument temporary none).setDocument name (some bytes)
  | .exchangeDocument temporary name, _, w' => ∃ a b, w.documents temporary = some a ∧
      w.documents name = some b ∧
      w' = (w.setDocument temporary (some b)).setDocument name (some a)
  | .removeDocument name, _, w' => w.documents name ≠ none ∧ w' = w.setDocument name none
  | .dropDocument name, _, w' => w' = w ∨ w' = w.setDocument name none
  | .openTarget path, opened, w' => w' = w ∧ site.At w path opened.1 opened.2
  | .fstat directory, stat, w' => w' = w ∧ stat.identity = directory.fileIdentity ∧
      ∀ name folder, site.Stands w directory name folder →
        isPrivateDirectory euid stat = folder.isPrivate
  | .statat name, stat, w' => w' = w ∧ ∃ child, w.children name = some child ∧ child.Shows stat
  | .mkdir name, _, w' => w.children name = none ∧ ∃ identity, identity.Valid ∧
      w' = w.setChild name (some (.folder ⟨site.device, identity, true, site.empty⟩))
  | .renameNoreplace source target, _, w' => w.children target = none ∧
      ∃ child, w.children source = some child ∧
        w' = (w.setChild source none).setChild target (some child)
  | .rmdir name, _, w' => (∃ folder, w.folder? name = some folder ∧
      folder.contents = site.empty) ∧ w' = w.setChild name none
  | .removeContents directory _, _, w' => ∃ name folder, site.Stands w directory name folder ∧
      site.removable folder.contents ∧
        w' = w.setChild name.bytes (some (.folder { folder with contents := site.empty }))
  | _, _, w' => w' = w

/-- What a call that failed part of the way has done. -/
def LifecycleCall.partialEffect (w : World κ) : LifecycleCall → World κ → Prop
  | .stageDocument stem bytes, w' => ∃ id part, w.documents (.staged stem id) = none ∧
      part <+: bytes ∧ w' = w.setDocument (.staged stem id) (some part)
  | .publishDocument temporary _, w' => w' = w.setDocument temporary none
  | .exchangeDocument temporary _, w' => w' = w.setDocument temporary none
  | .removeContents directory _, w' => ∃ name folder contents,
      site.Stands w directory name folder ∧
        w' = w.setChild name.bytes (some (.folder { folder with contents := contents }))
  | _, _ => False

/-- A failed `stat` that says there is nothing says the truth. -/
def LifecycleCall.denies (w : World κ) : (c : LifecycleCall) → c.Error → Prop
  | .statat name, .noent => w.children name = none
  | _, _ => True

/-- The failure of a quiet world: there is nothing to `stat`. -/
def LifecycleCall.apt : (c : LifecycleCall) → c.Error → Prop
  | .statat _, e => e = .noent
  | _, _ => True

/-- What a quiet world adds to a success: a probe tells the truth, and a new identifier names
nothing yet, where there is such an identifier. -/
def LifecycleCall.genuine (w : World κ) : (c : LifecycleCall) → c.Value → Prop
  | .inspectPath path, report => ∃ identity device,
      site.At w path identity device ∧ site.Describes report identity device
  | .metadataDirectory, same => same = true
  | .newUuid, id => ∀ free, w.children (temporaryName free) = none →
      w.children (temporaryName id) = none
  | _, _ => True

/-- The call can succeed as it does in a quiet world. -/
def LifecycleCall.Possible (w : World κ) (c : LifecycleCall) : Prop :=
  ∃ value w', c.effect euid site w value w' ∧ c.genuine site w value

/-- The answers of the world: whether it is calm or not, a call that succeeds has its effect. -/
def environment (calm : Bool) : Environment LifecycleCall LifecycleCall.Result (World κ) where
  step w c r w' :=
    match r with
    | .ok value => c.effect euid site w value w' ∧ (calm = true → c.genuine site w value)
    | .error e => c.denies w e ∧
        (w' = w ∨ (∃ value, c.effect euid site w value w') ∨ c.partialEffect site w w') ∧
        (calm = true → w' = w ∧ ¬c.Possible euid site w ∧ c.apt e)

/-- Calls may fail, and nobody else changes anything. -/
abbrev faulty : Environment LifecycleCall LifecycleCall.Result (World κ) :=
  environment euid site false

/-- A call fails only where it cannot succeed, and nobody else changes anything. -/
abbrev quiet : Environment LifecycleCall LifecycleCall.Result (World κ) :=
  environment euid site true

/-- A quiet world is one in which less may happen. -/
theorem faulty_of_environment {calm : Bool} {w w' : World κ} {c : LifecycleCall} {r : c.Result}
    (h : (environment euid site calm).step w c r w') : (faulty euid site).step w c r w' := by
  cases r with
  | ok value => exact ⟨h.1, nofun⟩
  | error e => exact ⟨h.1, h.2.1, nofun⟩

/-- What a run visits in a quiet world may also be visited where calls fail. -/
theorem faulty_of_visits {α : Type} {x : Handling α} {w w' : World κ}
    (run : Program.Visits (quiet euid site) x w w') : Program.Visits (faulty euid site) x w w' :=
  run.weaken fun _ _ _ _ => faulty_of_environment euid site

/-- A `stat` that shows the entry; the fields that no check reads are zero. -/
def Child.stat {κ : Type} : Child κ → Stat
  | .folder held => ⟨⟨held.device, held.identity.inode⟩, .directory, 0, 0, 0⟩
  | .other seen => seen

/-- An entry shows what its own `stat` says, so a `stat` of it can always be answered. -/
theorem Child.shows_stat {κ : Type} (child : Child κ) : child.Shows child.stat := by
  cases child with
  | folder held => exact ⟨rfl, rfl⟩
  | other seen => rfl

/-- Every call has a result in a quiet world. -/
theorem quiet_live (c : LifecycleCall) (w : World κ) :
    ∃ r w', (quiet euid site).step w c r w' := by
  by_cases h : c.Possible euid site w
  · obtain ⟨value, w', heffect, hgenuine⟩ := h
    exact ⟨.ok value, w', heffect, fun _ => hgenuine⟩
  · have hfails : ∀ e, c.denies w e → c.apt e → ∃ r w', (quiet euid site).step w c r w' :=
      fun e hdenies hapt => ⟨.error e, w, hdenies, .inl rfl, fun _ => ⟨rfl, h, hapt⟩⟩
    cases c
    case newUuid =>
      -- Some identifier is free, or none is and any one will do.
      exfalso
      by_cases hfree : ∃ id, w.children (temporaryName id) = none
      · obtain ⟨id, hid⟩ := hfree
        exact h ⟨id, w, rfl, fun _ _ => hid⟩
      · exact h ⟨sampleUuid 0, w, rfl, fun id hid => absurd ⟨id, hid⟩ hfree⟩
    case dropDocument => exact absurd ⟨(), w, .inl rfl, trivial⟩ h
    case statat name =>
      refine hfails .noent ?_ rfl
      by_contra hsome
      obtain ⟨child, hchild⟩ := Option.ne_none_iff_exists'.mp hsome
      exact h ⟨child.stat, w, ⟨rfl, child, hchild, child.shows_stat⟩, trivial⟩
    all_goals first
      | exact hfails (Linux.Errno.other 0) trivial trivial
      | exact hfails (PortError.new .io "") trivial trivial

/-- A call that reads leaves the world as it is. -/
theorem step_reads {calm : Bool} {w w' : World κ} {c : LifecycleCall} {r : c.Result}
    (hc : c.Reads) (h : (environment euid site calm).step w c r w') : w' = w := by
  have heffect : ∀ value, c.effect euid site w value w' → w' = w := by
    intro value hvalue
    cases c
    case readDocument => exact hvalue.1
    case openTarget => exact hvalue.1
    case fstat => exact hvalue.1
    case statat => exact hvalue.1
    all_goals first | exact hc.elim | exact hvalue
  cases r with
  | ok value => exact heffect value h.1
  | error e =>
    obtain ⟨-, hsame | ⟨value, hvalue⟩ | hpart, -⟩ := h
    · exact hsame
    · exact heffect value hvalue
    · cases c <;> first | exact hpart.elim | exact hc.elim

end Effects

end Lifecycle
end ThinWorkspace
