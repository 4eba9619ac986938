/-
# Removing the operation directories of a prepared workspace

Source: `clear_workspace_incomplete` and `require_empty_directory` in
`crates/thinws-adapter-linux/src/workspace.rs`, and those of
`crates/thinws-adapter-macos/src/store.rs` and `filesystem.rs`.

A `ClearCall` is a check of something that is held, or one of the two things done to an
operation directory.  `quiet` is the world of a run in which no call fails and nobody
interferes: its answers follow from its state.

Linux requires both directories to be empty before it removes either, and is all or
nothing (`OnLinux.allOrNothing_clear`).  macOS requires each one when its turn comes: with
an empty staging directory and a trash in use it has removed the one when it refuses the
other (`OnMacOs.run_clear_halfCleared`), and `clear_allOrNothing_iff` says that there is no
other such run.
-/

import ThinWorkspace.Application.Siblings
import ThinWorkspace.Core.Components
import ThinWorkspace.Core.FileName
import ThinWorkspace.Lib.Program
import ThinWorkspace.Metadata.Change

namespace ThinWorkspace
namespace Prepared

open ThinWorkspace.Core Lib Ports
open Application (normal_siblingName siblingNames stagingName trashName)

/-! ### What is held

A prepared workspace holds three directories by descriptor, under names that are told apart
by construction: the target under its leaf, the two operation directories under names that
belong to the workspace's identity.  The structure carries that the leaf is none of the two.
-/

/-- A directory of the target's parent that is held open, by its name there. -/
structure HeldChild where
  name : FileName
  identity : FileIdentity
deriving DecidableEq

/-- The staging directory has one of the sibling names of the workspace. -/
theorem stagingName_mem (id : WorkspaceId) : stagingName id ∈ siblingNames id :=
  List.mem_cons_self

/-- The trash directory has one of the sibling names of the workspace. -/
theorem trashName_mem (id : WorkspaceId) : trashName id ∈ siblingNames id :=
  List.mem_cons_of_mem _ List.mem_cons_self

/-- `LinuxPreparedWorkspace` and `MacOsPreparedWorkspace`, as `prepare_workspace` makes
them: the target has none of the reserved names. -/
structure PreparedWorkspace where
  workspaceId : WorkspaceId
  parent : AbsolutePath
  leaf : FileName
  reserved : leaf.bytes ∉ siblingNames workspaceId
  rootIdentity : FileIdentity
  stagingIdentity : FileIdentity
  trashIdentity : FileIdentity
  ownership : List UInt8

namespace PreparedWorkspace

variable (prepared : PreparedWorkspace)

/-- The target itself, held under its leaf, like its two siblings. -/
def root : HeldChild := ⟨prepared.leaf, prepared.rootIdentity⟩

/-- The staging directory, held under the sibling name that belongs to it. -/
def staging : HeldChild where
  name := ⟨stagingName prepared.workspaceId, normal_siblingName (stagingName_mem _)⟩
  identity := prepared.stagingIdentity

/-- The trash directory, held under the sibling name that belongs to it. -/
def trash : HeldChild where
  name := ⟨trashName prepared.workspaceId, normal_siblingName (trashName_mem _)⟩
  identity := prepared.trashIdentity

/-- The two operation directories, in the order in which both platforms remove them. -/
def operationDirectories : List HeldChild := [prepared.staging, prepared.trash]

/-- The path a child is held under: its name below the parent of the target. -/
def path (child : HeldChild) : List UInt8 :=
  (prepared.parent.child child.name.bytes child.name.normal).asBytes

end PreparedWorkspace

/-- `Path::file_name`: the last component of a path, if that is a name. -/
def fileName (path : List UInt8) : Option (List UInt8) :=
  match (components path).getLast? with
  | some (.normal name) => some name
  | _ => none

/-- A file name is a single component of a path. -/
theorem isName_fileName (name : FileName) : IsName name.bytes := by
  have hspecial := name.normal.not_special
  refine ⟨name.normal.ne_nil, name.normal.no_slash, ?_, ?_⟩
  · intro hdot
    rw [hdot] at hspecial
    cases hspecial
  · intro hdot
    rw [hdot] at hspecial
    cases hspecial

/-- The path of a child ends with the child's name.  The bytes of the path end with a slash and the
name, and the name has no slash. -/
theorem fileName_child (parent : AbsolutePath) (name : FileName) :
    fileName (parent.child name.bytes name.normal).asBytes = some name.bytes := by
  have hname := isName_fileName name
  have hparts : kernelComponents name.bytes = [name.bytes] := by
    have hone : ∀ part ∈ [name.bytes], IsName part := by simpa using hname
    have hbytes : pathBytes [name.bytes] = name.bytes := by simp [pathBytes]
    rw [← kernelComponents_pathBytes hone, hbytes]
  have hpath : ∃ before,
      (parent.child name.bytes name.normal).asBytes = before ++ slash :: name.bytes := by
    rw [AbsolutePath.asBytes_child]
    by_cases hroot : parent.asBytes = [slash]
    · exact ⟨[], by rw [if_pos hroot, hroot]; rfl⟩
    · exact ⟨parent.asBytes, by rw [if_neg hroot, List.append_assoc]; rfl⟩
  obtain ⟨before, hbefore⟩ := hpath
  rw [fileName, hbefore, components_eq, kernelComponents_append_slash, hparts,
    List.filterMap_append, List.filterMap_cons, parseSingleComponent_name hname,
    List.filterMap_nil, ← List.append_assoc, List.getLast?_append]
  rfl

/-- The file name of the path of a held child is the name it is held under. -/
theorem fileName_path (prepared : PreparedWorkspace) (child : HeldChild) :
    fileName (prepared.path child) = some child.name.bytes :=
  fileName_child prepared.parent child.name

/-! ### Calls

The checks of the source only read, and are one kind of call; listing, unlinking and
synchronising are the others.  Any of them may fail, with the error that the platform gives
it. -/

/-- A check of something that is held: the lock, the layout, the prepared workspace, the parent, or
one child and its mount, its mode or its entry in the parent. -/
inductive Check where
  | dataRootLock
  | layout
  | prepared
  | parent
  | directory (child : HeldChild)
  | btrfsMount (child : HeldChild)
  | privateOperationDirectory (child : HeldChild)
  | targetChild (child : HeldChild) (name : List UInt8)
deriving DecidableEq

/-- A call of the clearing: a check, which only reads, or one of the three operations. -/
inductive ClearCall where
  | check (c : Check)
  | readDirectory (child : HeldChild)
  | unlinkDirectory (name : List UInt8)
  | syncParent
deriving DecidableEq

/-- What a call returns when it succeeds.  A directory is read entry by entry, and each
read can fail. -/
@[reducible] def ClearCall.Value : ClearCall → Type
  | .readDirectory _ => List (Except Unit (List UInt8))
  | _ => Unit

/-- What a call fails with: a check reports an error of its own, the other calls an `errno` that
the caller words. -/
@[reducible] def ClearCall.Error : ClearCall → Type
  | .check _ => PortError
  | _ => Unit

/-- What a call returns: its value, or a failure of the kind that this call has. -/
@[reducible] def ClearCall.Result (c : ClearCall) : Type := Except c.Error c.Value

/-- A clearing, or a part of one: a program over these calls that fails with a port error. -/
abbrev Clearing (α : Type) := Program ClearCall ClearCall.Result PortError α

/-- A call whose failure is reported in other terms. -/
abbrev callOr (c : ClearCall) (f : c.Error → PortError) : Clearing c.Value :=
  Program.orFail f (Program.perform c)

/-- One check, whose failure ends the clearing as it is. -/
abbrev check (c : Check) : Clearing Unit := callOr (.check c) id

/-- The loop of `require_empty_directory` over the entries: it fails at an entry that cannot be
read and refuses one that is neither `.` nor `..`. -/
def requireNoEntry (failed occupied : PortError) :
    List (Except Unit (List UInt8)) → Clearing Unit
  | [] => pure ()
  | .error _ :: _ => throw failed
  | .ok name :: entries =>
    if name = dot ∨ name = dotDot then requireNoEntry failed occupied entries
    else throw occupied

/-- The name of a held child, as `file_name` finds it. -/
def childName (prepared : PreparedWorkspace) (child : HeldChild) (error : PortError) :
    Clearing (List UInt8) :=
  match fileName (prepared.path child) with
  | some name => pure name
  | none => throw error

/-- The path of a held child has a file name, so the code's `expect` never fails. -/
theorem isSome_fileName (prepared : PreparedWorkspace) (child : HeldChild) :
    (fileName (prepared.path child)).isSome := by
  rw [fileName_path]
  rfl

/-- `expect` of the target's leaf: a prepared target always has one. -/
def expectLeaf (prepared : PreparedWorkspace) : List UInt8 :=
  (fileName (prepared.path prepared.root)).get (isSome_fileName prepared prepared.root)

/-! ### Linux

Linux looks at both directories before it removes the first one, and checks everything that
is held again before each removal. -/

namespace OnLinux

/-- `require_empty_directory` of Linux: the held directory is revalidated before its entries are
read and again after. -/
def requireEmptyDirectory (child : HeldChild) : Clearing Unit := do
  check (.directory child)
  let entries ← callOr (.readDirectory child) fun _ => .new .io "read Workspace operation directory"
  requireNoEntry (.new .io "read Workspace operation entry")
    (.new .notEmpty "Workspace operation directory is not empty") entries
  check (.directory child)

/-- One turn of the second loop of `clear_workspace_incomplete`: all that is held is checked again
before the directory is removed. -/
def removeOperationDirectory (prepared : PreparedWorkspace) (child : HeldChild) :
    Clearing Unit := do
  check .dataRootLock
  check .parent
  check (.directory child)
  check (.btrfsMount child)
  check (.privateOperationDirectory child)
  requireEmptyDirectory child
  let name ← childName prepared child
    (.new .invalidLayout "Workspace operation directory has no name")
  callOr (.unlinkDirectory name) fun _ => .new .io "remove completed Workspace operation directory"
  callOr .syncParent fun _ => .new .io "sync Linux control directory"

/-- `clear_workspace_incomplete` of Linux: both directories are required to be empty before either
is removed. -/
def clearWorkspaceIncomplete (prepared : PreparedWorkspace) : Clearing Unit := do
  check .dataRootLock
  check .layout
  check .prepared
  prepared.operationDirectories.forM requireEmptyDirectory
  prepared.operationDirectories.forM (removeOperationDirectory prepared)
  check (.directory prepared.root)
  check (.btrfsMount prepared.root)
  check .layout

end OnLinux

/-! ### macOS

macOS has one loop, in which each directory is looked at and removed before the next one is
looked at. -/

namespace OnMacOs

/-- `require_empty_directory` of macOS, with `directory_is_empty`: the entries are read once,
through the descriptor. -/
def requireEmptyDirectory (child : HeldChild) : Clearing Unit := do
  let entries ← callOr (.readDirectory child) fun _ => .new .io "read private directory"
  requireNoEntry (.new .io "read private directory entry")
    (.new .notEmpty "require empty private directory") entries

/-- One turn of the loop of `clear_workspace_incomplete`: the directory is required to be empty,
and is removed at once. -/
def removeOperationDirectory (prepared : PreparedWorkspace) (child : HeldChild) :
    Clearing Unit := do
  requireEmptyDirectory child
  let name ← childName prepared child
    (.new .invalidLayout "Workspace temporary root has no name")
  check (.targetChild child name)
  callOr (.unlinkDirectory name) fun _ => .new .io "remove completed Workspace temporary root"
  callOr .syncParent fun _ => .new .io "sync private directory"

/-- `clear_workspace_incomplete` of macOS, whose one loop requires and removes each directory in
turn. -/
def clearWorkspaceIncomplete (prepared : PreparedWorkspace) : Clearing Unit := do
  check .dataRootLock
  check .layout
  check .prepared
  prepared.operationDirectories.forM (removeOperationDirectory prepared)
  check (.targetChild prepared.root (expectLeaf prepared))
  check .layout

end OnMacOs

/-! ### The world of an undisturbed run

The statement is about a run without faults and without interference, in which a refusal is
the code's own decision.  So the world answers every call by what is there, and
`AllOrNothing` compares the parent before and after. -/

/-- A directory: which it is, and its entries but `.` and `..`, in the order in which they
are listed, each with all that lies in it. -/
structure Folder (κ : Type) where
  identity : FileIdentity
  entries : List (FileName × κ)

/-- What has a name in the target's parent: a directory with what is in it, or anything else. -/
inductive Entry (κ : Type) where
  | folder (folder : Folder κ)
  | other (content : κ)

/-- The target's parent and the ownership document, as an undisturbed run finds and leaves them. -/
structure World (κ : Type) where
  children : List UInt8 → Option (Entry κ)
  ownership : List UInt8

namespace World

variable {κ : Type} (w : World κ)

/-- The directory that is held as a child, where it still has its name. -/
def held (child : HeldChild) : Option (Folder κ) :=
  match w.children child.name.bytes with
  | some (.folder folder) => if folder.identity = child.identity then some folder else none
  | _ => none

/-- The world after a name was removed from the parent; the ownership document stays. -/
def without (name : List UInt8) : World κ where
  children := fun other => if other = name then none else w.children other
  ownership := w.ownership

/-- The child has its name, and nothing in it. -/
def Vacant (child : HeldChild) : Prop :=
  ∃ folder, w.held child = some folder ∧ folder.entries = []

/-- Removing one name leaves every other name as it was. -/
theorem children_without {name other : List UInt8} (h : other ≠ name) :
    (w.without name).children other = w.children other := if_neg h

/-- A child that was removed is no longer held. -/
theorem held_without_self (child : HeldChild) :
    (w.without child.name.bytes).held child = none := by
  have hnone : (w.without child.name.bytes).children child.name.bytes = none := if_pos rfl
  rw [held, hnone]

/-- A child under another name is held as before. -/
theorem held_without {child : HeldChild} {name : List UInt8} (h : child.name.bytes ≠ name) :
    (w.without name).held child = w.held child := by
  rw [held, children_without w h]
  rfl

/-- A child under another name is vacant as before. -/
theorem vacant_without {child : HeldChild} {name : List UInt8} (h : child.name.bytes ≠ name) :
    (w.without name).Vacant child ↔ w.Vacant child := by
  rw [Vacant, held_without w h]
  rfl

/-- A held child is the directory that has its name in the parent. -/
theorem children_of_held {child : HeldChild} {folder : Folder κ} (h : w.held child = some folder) :
    w.children child.name.bytes = some (.folder folder) := by
  rw [held] at h
  split at h
  · rename_i found hfound
    split at h
    · rw [hfound, Option.some.inj h]
    · cases h
  · cases h

end World

variable {κ : Type} (refusal : Check → PortError) (prepared : PreparedWorkspace)

/-- The check holds in this world: what is held is there, and what was registered is unchanged. -/
def stands (w : World κ) : Check → Bool
  | .dataRootLock | .layout | .parent => true
  | .prepared => (w.held prepared.root).isSome && (w.held prepared.staging).isSome &&
      (w.held prepared.trash).isSome && w.ownership == prepared.ownership
  | .directory child | .btrfsMount child | .privateOperationDirectory child =>
    (w.held child).isSome
  | .targetChild child name => child.name.bytes == name && (w.held child).isSome

/-- What reading a directory shows: the two special names and its entries, or nothing where there
is no directory. -/
def listing : Option (Folder κ) → List (Except Unit (List UInt8))
  | none => []
  | some folder =>
    .ok dot :: .ok dotDot :: folder.entries.map fun entry => .ok entry.1.bytes

/-- The answers of a world in which no call fails and nobody interferes; a check that does
not hold reports its `refusal`. -/
def quiet (w : World κ) : (c : ClearCall) → c.Result × World κ
  | .check c => (if stands prepared w c then .ok () else .error (refusal c), w)
  | .readDirectory child => (.ok (listing (w.held child)), w)
  | .unlinkDirectory name =>
    match w.children name with
    | some (.folder folder) =>
      if folder.entries.isEmpty then (.ok (), w.without name) else (.error (), w)
    | _ => (.error (), w)
  | .syncParent => (.ok (), w)

/-- An undisturbed run: its outcome and what it leaves. -/
def run {α : Type} (x : Clearing α) (w : World κ) : Except PortError α × World κ :=
  Program.execute (quiet refusal prepared) x w

/-- The world is as it was prepared, whatever was put into the directories. -/
structure AsPrepared (w : World κ) : Prop where
  root : (w.held prepared.root).isSome
  staging : (w.held prepared.staging).isSome
  trash : (w.held prepared.trash).isSome
  ownership : w.ownership = prepared.ownership

/-- **All or nothing.**  A clearing that succeeds found both directories empty and removed
the two, and nothing else; one that refuses found an entry in one of them and changed
nothing. -/
def AllOrNothing (before : World κ) : Except PortError Unit × World κ → Prop
  | (.ok (), after) => (before.Vacant prepared.staging ∧ before.Vacant prepared.trash) ∧
      after = (before.without prepared.staging.name.bytes).without prepared.trash.name.bytes
  | (.error e, after) => ¬(before.Vacant prepared.staging ∧ before.Vacant prepared.trash) ∧
      e.kind = .notEmpty ∧ after = before

/-! ### The parts of a run

What each part of a clearing does in this world.  The names of the two directories differ
(`trash_ne_staging`), which is why removing one leaves what was seen of the other. -/

variable {refusal prepared} {w : World κ}

/-- A run goes on from the world in which its first part returned. -/
theorem run_bind_ok {α β : Type} {x : Clearing α} {f : α → Clearing β} {a : α} {w' : World κ}
    (h : run refusal prepared x w = (.ok a, w')) :
    run refusal prepared (x >>= f) w = run refusal prepared (f a) w' :=
  Program.execute_bind_ok h

/-- A run ends where its first part failed, with that error and that world. -/
theorem run_bind_error {α β : Type} {x : Clearing α} {f : α → Clearing β} {e : PortError}
    {w' : World κ} (h : run refusal prepared x w = (.error e, w')) :
    run refusal prepared (x >>= f) w = (.error e, w') :=
  Program.execute_bind_error h

/-- A check that holds passes and changes nothing, whatever it looks at. -/
theorem run_check {c : Check} (h : stands prepared w c = true) :
    run refusal prepared (check c) w = (.ok (), w) := by
  show Program.execute _ (Program.ofExcept id
    (if stands prepared w c then .ok () else .error (refusal c))) w = _
  rw [if_pos h]
  rfl

/-- The loop over the entries refuses iff there is one. -/
theorem run_requireNoEntry {failed occupied : PortError} (folder : Folder κ) :
    run refusal prepared (requireNoEntry failed occupied (listing (some folder))) w =
      (if folder.entries = [] then .ok () else .error occupied, w) := by
  have hspecial : requireNoEntry failed occupied (listing (some folder)) =
      requireNoEntry failed occupied (folder.entries.map fun entry => .ok entry.1.bytes) := by
    rw [listing, requireNoEntry, if_pos (Or.inl rfl), requireNoEntry, if_pos (Or.inr rfl)]
  rw [hspecial]
  cases hentries : folder.entries with
  | nil => rfl
  | cons entry entries =>
    have hname := isName_fileName entry.1
    rw [List.map_cons, requireNoEntry, if_neg (not_or.mpr ⟨hname.ne_dot, hname.ne_dotDot⟩),
      if_neg (List.cons_ne_nil _ _)]
    rfl

/-- The name of a held child is found, without any call. -/
theorem run_childName {child : HeldChild} {error : PortError} :
    run refusal prepared (childName prepared child error) w = (.ok child.name.bytes, w) := by
  rw [childName, fileName_path]
  rfl

/-- An empty directory is removed, and nothing else with it. -/
theorem run_unlinkDirectory {child : HeldChild} {f : Unit → PortError} (h : w.Vacant child) :
    run refusal prepared (callOr (.unlinkDirectory child.name.bytes) f) w =
      (.ok (), w.without child.name.bytes) := by
  obtain ⟨folder, hheld, hempty⟩ := h
  have hanswer : quiet refusal prepared w (.unlinkDirectory child.name.bytes) =
      (.ok (), w.without child.name.bytes) := by
    rw [quiet, w.children_of_held hheld]
    simp [hempty]
  show Program.execute _ (Program.ofExcept f
    (quiet refusal prepared w (.unlinkDirectory child.name.bytes)).1)
    (quiet refusal prepared w (.unlinkDirectory child.name.bytes)).2 = _
  rw [hanswer]
  rfl

/-- A vacant child is held, since it is a directory that is there. -/
theorem isSome_of_vacant {child : HeldChild} (h : w.Vacant child) : (w.held child).isSome := by
  obtain ⟨folder, hheld, -⟩ := h
  rw [hheld]
  rfl

/-- The two operation directories have different names, so removing one leaves the other. -/
theorem trash_ne_staging : prepared.trash.name.bytes ≠ prepared.staging.name.bytes := by
  intro h
  have hkind : (asBytes ".thinws-trash-" ++ asBytes prepared.workspaceId.toText)[8]? =
      (asBytes ".thinws-staging-" ++ asBytes prepared.workspaceId.toText)[8]? := by
    rw [← asBytes_append, ← asBytes_append]
    exact congrArg (·[8]?) h
  rw [List.getElem?_append_left (by decide), List.getElem?_append_left (by decide)] at hkind
  exact absurd hkind (by decide)

/-- The target does not have the name of its staging directory, which is reserved. -/
theorem root_ne_staging : prepared.root.name.bytes ≠ prepared.staging.name.bytes :=
  fun h => prepared.reserved (h ▸ stagingName_mem _)

/-- The target does not have the name of its trash directory, which is reserved. -/
theorem root_ne_trash : prepared.root.name.bytes ≠ prepared.trash.name.bytes :=
  fun h => prepared.reserved (h ▸ trashName_mem _)

/-- A world that is as it was prepared passes the check of the prepared workspace. -/
theorem AsPrepared.stands_prepared (h : AsPrepared prepared w) :
    stands prepared w .prepared = true := by
  simp [stands, h.root, h.staging, h.trash, h.ownership]

/-- The target is still held after both operation directories were removed. -/
theorem AsPrepared.root_after (h : AsPrepared prepared w) :
    (((w.without prepared.staging.name.bytes).without prepared.trash.name.bytes).held
      prepared.root).isSome := by
  rw [World.held_without _ root_ne_trash, World.held_without _ root_ne_staging]
  exact h.root

/-- Either operation directory is there as it was prepared, with some content. -/
theorem AsPrepared.exists_folder (h : AsPrepared prepared w) {child : HeldChild}
    (hchild : child ∈ prepared.operationDirectories) : ∃ folder, w.held child = some folder := by
  have hsome : (w.held child).isSome := by
    rcases List.mem_pair.mp hchild with rfl | rfl
    · exact h.staging
    · exact h.trash
  exact Option.isSome_iff_exists.mp hsome

/-- A directory that is there is vacant iff it is empty. -/
theorem vacant_iff {child : HeldChild} {folder : Folder κ} (h : w.held child = some folder) :
    w.Vacant child ↔ folder.entries = [] := by
  constructor
  · rintro ⟨found, hfound, hempty⟩
    rw [h] at hfound
    rwa [Option.some.inj hfound]
  · exact fun hempty => ⟨folder, h, hempty⟩

/-! ### Linux

On Linux a refusal precedes the first removal, so all or nothing holds without a condition.
-/

namespace OnLinux

/-- `require_empty_directory` of Linux refuses exactly if there is an entry, and changes nothing.
-/
theorem run_requireEmptyDirectory {child : HeldChild} {folder : Folder κ}
    (h : w.held child = some folder) :
    run refusal prepared (requireEmptyDirectory child) w =
      (if folder.entries = [] then .ok ()
        else .error (.new .notEmpty "Workspace operation directory is not empty"), w) := by
  have hstands : stands prepared w (.directory child) = true := by
    show (w.held child).isSome = true
    rw [h]
    rfl
  have hread : run refusal prepared (callOr (.readDirectory child)
      fun _ => .new .io "read Workspace operation directory") w =
      (.ok (listing (some folder)), w) := by
    rw [← h]
    rfl
  have hloop := @run_requireNoEntry κ refusal prepared w
    (.new .io "read Workspace operation entry")
    (.new .notEmpty "Workspace operation directory is not empty") folder
  rw [requireEmptyDirectory, run_bind_ok (run_check hstands), run_bind_ok hread]
  by_cases hempty : folder.entries = []
  · rw [if_pos hempty] at hloop ⊢
    rw [run_bind_ok hloop, run_check hstands]
  · rw [if_neg hempty] at hloop ⊢
    exact run_bind_error hloop

/-- A turn of the loop removes a directory that is empty, before the next one is looked at. -/
theorem run_removeOperationDirectory {child : HeldChild} (h : w.Vacant child) :
    run refusal prepared (removeOperationDirectory prepared child) w =
      (.ok (), w.without child.name.bytes) := by
  have hheld : ∀ c, c = .dataRootLock ∨ c = .parent ∨ c = .directory child ∨
      c = .btrfsMount child ∨ c = .privateOperationDirectory child →
      run refusal prepared (check c) w = (.ok (), w) := by
    rintro c (rfl | rfl | rfl | rfl | rfl)
    · exact run_check rfl
    · exact run_check rfl
    all_goals exact run_check (isSome_of_vacant h)
  have hempty : run refusal prepared (requireEmptyDirectory child) w = (.ok (), w) := by
    obtain ⟨folder, hfolder, hnil⟩ := h
    rw [run_requireEmptyDirectory hfolder, if_pos hnil]
  rw [removeOperationDirectory, run_bind_ok (hheld _ (by simp)), run_bind_ok (hheld _ (by simp)),
    run_bind_ok (hheld _ (by simp)), run_bind_ok (hheld _ (by simp)),
    run_bind_ok (hheld _ (by simp)), run_bind_ok hempty, run_bind_ok run_childName,
    run_bind_ok (run_unlinkDirectory h)]
  rfl

/-- **Linux is all or nothing**: both directories are removed, or the run is refused and both are
as they were. -/
theorem allOrNothing_clear (h : AsPrepared prepared w) :
    AllOrNothing prepared w (run refusal prepared (clearWorkspaceIncomplete prepared) w) := by
  obtain ⟨staged, hstaged⟩ := h.exists_folder (List.mem_cons_self ..)
  obtain ⟨trashed, htrashed⟩ := h.exists_folder (List.mem_cons_of_mem _ (List.mem_cons_self ..))
  rw [clearWorkspaceIncomplete, run_bind_ok (run_check rfl), run_bind_ok (run_check rfl),
    run_bind_ok (run_check h.stands_prepared)]
  by_cases hempty : staged.entries = [] ∧ trashed.entries = []
  · have hstaging : w.Vacant prepared.staging := (vacant_iff hstaged).mpr hempty.1
    have htrash : w.Vacant prepared.trash := (vacant_iff htrashed).mpr hempty.2
    have hpreflight : run refusal prepared
        (prepared.operationDirectories.forM requireEmptyDirectory) w = (.ok (), w) := by
      have hone := @run_requireEmptyDirectory κ refusal prepared w prepared.staging staged hstaged
      have htwo := @run_requireEmptyDirectory κ refusal prepared w prepared.trash trashed htrashed
      rw [if_pos hempty.1] at hone
      rw [if_pos hempty.2] at htwo
      show run refusal prepared (requireEmptyDirectory prepared.staging >>= fun _ =>
        requireEmptyDirectory prepared.trash >>= fun _ => pure ()) w = _
      rw [run_bind_ok hone, run_bind_ok htwo]
      rfl
    have hremove : run refusal prepared
        (prepared.operationDirectories.forM (removeOperationDirectory prepared)) w =
        (.ok (), (w.without prepared.staging.name.bytes).without prepared.trash.name.bytes) := by
      have hafter := (w.vacant_without trash_ne_staging).mpr htrash
      show run refusal prepared (removeOperationDirectory prepared prepared.staging >>= fun _ =>
        removeOperationDirectory prepared prepared.trash >>= fun _ => pure ()) w = _
      rw [run_bind_ok (run_removeOperationDirectory hstaging),
        run_bind_ok (run_removeOperationDirectory hafter)]
      rfl
    have hroot : ∀ c, c = .directory prepared.root ∨ c = .btrfsMount prepared.root →
        stands prepared ((w.without prepared.staging.name.bytes).without
          prepared.trash.name.bytes) c = true := by
      rintro c (rfl | rfl) <;> exact h.root_after
    rw [run_bind_ok hpreflight, run_bind_ok hremove, run_bind_ok (run_check (hroot _ (Or.inl rfl))),
      run_bind_ok (run_check (hroot _ (Or.inr rfl))), run_check rfl]
    exact ⟨⟨hstaging, htrash⟩, rfl⟩
  · have hpreflight : run refusal prepared
        (prepared.operationDirectories.forM requireEmptyDirectory) w =
        (.error (.new .notEmpty "Workspace operation directory is not empty"), w) := by
      have hone := @run_requireEmptyDirectory κ refusal prepared w prepared.staging staged hstaged
      have htwo := @run_requireEmptyDirectory κ refusal prepared w prepared.trash trashed htrashed
      show run refusal prepared (requireEmptyDirectory prepared.staging >>= fun _ =>
        requireEmptyDirectory prepared.trash >>= fun _ => pure ()) w = _
      by_cases hfirst : staged.entries = []
      · rw [if_pos hfirst] at hone
        rw [if_neg fun hsecond => hempty ⟨hfirst, hsecond⟩] at htwo
        rw [run_bind_ok hone, run_bind_error htwo]
      · rw [if_neg hfirst] at hone
        rw [run_bind_error hone]
    rw [run_bind_error hpreflight]
    refine ⟨fun hvacant => hempty ⟨?_, ?_⟩, rfl, rfl⟩
    · exact (vacant_iff hstaged).mp hvacant.1
    · exact (vacant_iff htrashed).mp hvacant.2

end OnLinux

/-! ### macOS

On macOS the first directory is gone when the second one turns out to be in use:
`run_clear_halfCleared` computes this run, and every other case is shown to be all or
nothing. -/

namespace OnMacOs

/-- `require_empty_directory` of macOS refuses exactly if there is an entry, and changes nothing.
-/
theorem run_requireEmptyDirectory {child : HeldChild} {folder : Folder κ}
    (h : w.held child = some folder) :
    run refusal prepared (requireEmptyDirectory child) w =
      (if folder.entries = [] then .ok ()
        else .error (.new .notEmpty "require empty private directory"), w) := by
  have hread : run refusal prepared (callOr (.readDirectory child)
      fun _ => .new .io "read private directory") w = (.ok (listing (some folder)), w) := by
    rw [← h]
    rfl
  rw [requireEmptyDirectory, run_bind_ok hread, run_requireNoEntry]

/-- A turn of the loop removes a directory that is empty. -/
theorem run_removeOperationDirectory {child : HeldChild} (h : w.Vacant child) :
    run refusal prepared (removeOperationDirectory prepared child) w =
      (.ok (), w.without child.name.bytes) := by
  have hempty : run refusal prepared (requireEmptyDirectory child) w = (.ok (), w) := by
    obtain ⟨folder, hfolder, hnil⟩ := h
    rw [run_requireEmptyDirectory hfolder, if_pos hnil]
  have hchild : stands prepared w (.targetChild child child.name.bytes) = true := by
    simp [stands, isSome_of_vacant h]
  rw [removeOperationDirectory, run_bind_ok hempty, run_bind_ok run_childName,
    run_bind_ok (run_check hchild), run_bind_ok (run_unlinkDirectory h)]
  rfl

/-- A turn of the loop refuses a directory that has an entry, and leaves it. -/
theorem run_removeOperationDirectory_error {child : HeldChild} {folder : Folder κ}
    (h : w.held child = some folder) (hentries : folder.entries ≠ []) :
    run refusal prepared (removeOperationDirectory prepared child) w =
      (.error (.new .notEmpty "require empty private directory"), w) := by
  have hrefused : run refusal prepared (requireEmptyDirectory child) w =
      (.error (.new .notEmpty "require empty private directory"), w) := by
    rw [run_requireEmptyDirectory h, if_neg hentries]
  rw [removeOperationDirectory, run_bind_error hrefused]

/-- A run up to its loop: what is checked before it holds in a prepared world. -/
theorem run_clear (h : AsPrepared prepared w) :
    run refusal prepared (clearWorkspaceIncomplete prepared) w =
      run refusal prepared (removeOperationDirectory prepared prepared.staging >>= fun _ =>
        removeOperationDirectory prepared prepared.trash >>= fun _ =>
        check (.targetChild prepared.root (expectLeaf prepared)) >>= fun _ =>
        check .layout) w := by
  rw [clearWorkspaceIncomplete, run_bind_ok (run_check rfl), run_bind_ok (run_check rfl),
    run_bind_ok (run_check h.stands_prepared)]
  show run refusal prepared ((removeOperationDirectory prepared prepared.staging >>= fun _ =>
    removeOperationDirectory prepared prepared.trash >>= fun _ => pure ()) >>= fun _ => _) w = _
  rw [Program.bind_assoc]
  refine congrArg (fun x => run refusal prepared x w) (congrArg _ (funext fun _ => ?_))
  rw [Program.bind_assoc]
  rfl

/-- With an empty staging directory and a trash in use, macOS removes the one and then
refuses. -/
theorem run_clear_halfCleared (h : AsPrepared prepared w) (hstaging : w.Vacant prepared.staging)
    (htrash : ¬w.Vacant prepared.trash) :
    run refusal prepared (clearWorkspaceIncomplete prepared) w =
      (.error (.new .notEmpty "require empty private directory"),
        w.without prepared.staging.name.bytes) := by
  obtain ⟨trashed, htrashed⟩ := h.exists_folder (List.mem_cons_of_mem _ (List.mem_cons_self ..))
  have hafter : (w.without prepared.staging.name.bytes).held prepared.trash = some trashed := by
    rw [World.held_without _ trash_ne_staging, htrashed]
  rw [run_clear h, run_bind_ok (run_removeOperationDirectory hstaging)]
  refine run_bind_error (run_removeOperationDirectory_error hafter fun hempty => htrash ?_)
  exact (vacant_iff htrashed).mpr hempty

/-- With an empty staging directory and a trash in use, the outcome on macOS is neither all nor
nothing. -/
theorem not_allOrNothing_clear (h : AsPrepared prepared w) (hstaging : w.Vacant prepared.staging)
    (htrash : ¬w.Vacant prepared.trash) :
    ¬AllOrNothing prepared w (run refusal prepared (clearWorkspaceIncomplete prepared) w) := by
  intro hnothing
  rw [run_clear_halfCleared h hstaging htrash] at hnothing
  have hheld : (w.held prepared.staging).isSome := h.staging
  rw [← hnothing.2.2, World.held_without_self] at hheld
  cases hheld

/-- **macOS is all or nothing** unless it finds an empty staging directory and a trash in
use. -/
theorem allOrNothing_clear (h : AsPrepared prepared w)
    (hcontent : ¬(w.Vacant prepared.staging ∧ ¬w.Vacant prepared.trash)) :
    AllOrNothing prepared w (run refusal prepared (clearWorkspaceIncomplete prepared) w) := by
  obtain ⟨staged, hstaged⟩ := h.exists_folder (List.mem_cons_self ..)
  by_cases hstaging : w.Vacant prepared.staging
  · have htrash : w.Vacant prepared.trash :=
      Classical.byContradiction fun htrash => hcontent ⟨hstaging, htrash⟩
    have hafter := (w.vacant_without trash_ne_staging).mpr htrash
    have hleaf : expectLeaf prepared = prepared.root.name.bytes := by
      simp [expectLeaf, fileName_path]
    have hroot : stands prepared ((w.without prepared.staging.name.bytes).without
        prepared.trash.name.bytes) (.targetChild prepared.root (expectLeaf prepared)) = true := by
      simp [stands, hleaf, h.root_after]
    rw [run_clear h, run_bind_ok (run_removeOperationDirectory hstaging),
      run_bind_ok (run_removeOperationDirectory hafter), run_bind_ok (run_check hroot),
      run_check rfl]
    exact ⟨⟨hstaging, htrash⟩, rfl⟩
  · have hentries : staged.entries ≠ [] := fun hempty =>
      hstaging ((vacant_iff hstaged).mpr hempty)
    rw [run_clear h, run_bind_error (run_removeOperationDirectory_error hstaged hentries)]
    exact ⟨fun hvacant => hstaging hvacant.1, rfl, rfl⟩

end OnMacOs

/-! ### When clearing is all or nothing

The two platforms side by side, and a workspace on which they differ: its staging directory
is empty, and its trash has a file. -/

/-- **When clearing is all or nothing**: on Linux always, on macOS unless the staging
directory is empty and the trash is not. -/
theorem clear_allOrNothing_iff {κ : Type} (refusal : Check → PortError)
    (prepared : PreparedWorkspace) (w : World κ) (h : AsPrepared prepared w) :
    AllOrNothing prepared w
        (run refusal prepared (OnLinux.clearWorkspaceIncomplete prepared) w) ∧
      (AllOrNothing prepared w
          (run refusal prepared (OnMacOs.clearWorkspaceIncomplete prepared) w) ↔
        ¬(w.Vacant prepared.staging ∧ ¬w.Vacant prepared.trash)) := by
  refine ⟨OnLinux.allOrNothing_clear h, fun hnothing hpartial => ?_,
    OnMacOs.allOrNothing_clear h⟩
  exact OnMacOs.not_allOrNothing_clear h hpartial.1 hpartial.2 hnothing

/-- The world in which a workspace stands prepared, with some content in its three directories. -/
def World.ofPrepared {κ : Type} (prepared : PreparedWorkspace)
    (rooted staged trashed : List (FileName × κ)) : World κ where
  children := fun name =>
    if name = prepared.root.name.bytes then some (.folder ⟨prepared.root.identity, rooted⟩)
    else if name = prepared.staging.name.bytes then
      some (.folder ⟨prepared.staging.identity, staged⟩)
    else if name = prepared.trash.name.bytes then
      some (.folder ⟨prepared.trash.identity, trashed⟩)
    else none
  ownership := prepared.ownership

section OfPrepared

variable {κ : Type} {prepared : PreparedWorkspace} {rooted staged trashed : List (FileName × κ)}

/-- In that world the target is held with its content. -/
theorem held_root_ofPrepared : (World.ofPrepared prepared rooted staged trashed).held
    prepared.root = some ⟨prepared.root.identity, rooted⟩ := by
  simp [World.held, World.ofPrepared]

/-- In that world the staging directory is held with its content. -/
theorem held_staging_ofPrepared : (World.ofPrepared prepared rooted staged trashed).held
    prepared.staging = some ⟨prepared.staging.identity, staged⟩ := by
  simp [World.held, World.ofPrepared, Ne.symm root_ne_staging]

/-- In that world the trash directory is held with its content. -/
theorem held_trash_ofPrepared : (World.ofPrepared prepared rooted staged trashed).held
    prepared.trash = some ⟨prepared.trash.identity, trashed⟩ := by
  simp [World.held, World.ofPrepared, Ne.symm root_ne_trash, trash_ne_staging]

/-- That world is as it was prepared: the three directories are there, under their names and
identities. -/
theorem asPrepared_ofPrepared :
    AsPrepared prepared (World.ofPrepared prepared rooted staged trashed) where
  root := by rw [held_root_ofPrepared]; rfl
  staging := by rw [held_staging_ofPrepared]; rfl
  trash := by rw [held_trash_ofPrepared]; rfl
  ownership := rfl

end OfPrepared

/-- One letter is a proper file name, so it can be the name of an entry. -/
theorem normal_letter : AbsolutePath.Normal [97] := ⟨by decide, by decide, by decide⟩

/-- One letter is none of the names reserved for a workspace. -/
theorem letter_not_reserved (id : WorkspaceId) : ([97] : List UInt8) ∉ siblingNames id := by
  intro h
  obtain ⟨kind, -, hname⟩ := Application.mem_siblingNames.mp h
  have hlength := congrArg List.length hname
  rw [List.length_append, Application.length_toText, List.length_singleton] at hlength
  omega

/-- The workspace `/a/a`, with its three directories. -/
def preparedLetter : PreparedWorkspace where
  workspaceId := ⟨sampleUuid 1⟩
  parent := samplePath 0
  leaf := ⟨[97], normal_letter⟩
  reserved := letter_not_reserved _
  rootIdentity := ⟨1, 257⟩
  stagingIdentity := ⟨1, 258⟩
  trashIdentity := ⟨1, 259⟩
  ownership := []

/-- The workspace with an empty staging directory and the file `a` in its trash. -/
def trashInUse : World (List UInt8) :=
  .ofPrepared preparedLetter [] [] [(⟨[97], normal_letter⟩, [])]

/-- In the sample world the staging directory is empty and the trash is not. -/
theorem vacant_trashInUse : trashInUse.Vacant preparedLetter.staging ∧
    ¬trashInUse.Vacant preparedLetter.trash := by
  refine ⟨(vacant_iff held_staging_ofPrepared).mpr rfl, fun h => ?_⟩
  have hempty := (vacant_iff held_trash_ofPrepared).mp h
  cases hempty

/-- The sample world is as it was prepared, whatever has come into its trash since. -/
theorem asPrepared_trashInUse : AsPrepared preparedLetter trashInUse := asPrepared_ofPrepared

/-- macOS refuses to clear it and has removed the staging directory: there the trash is looked at
only afterwards. -/
theorem clear_removes_before_refusing :
    run (fun _ => .new .io "") preparedLetter
        (OnMacOs.clearWorkspaceIncomplete preparedLetter) trashInUse =
      (.error (.new .notEmpty "require empty private directory"),
        trashInUse.without preparedLetter.staging.name.bytes) ∧
    ¬AllOrNothing preparedLetter trashInUse (run (fun _ => .new .io "") preparedLetter
      (OnMacOs.clearWorkspaceIncomplete preparedLetter) trashInUse) :=
  ⟨OnMacOs.run_clear_halfCleared asPrepared_trashInUse vacant_trashInUse.1 vacant_trashInUse.2,
    OnMacOs.not_allOrNothing_clear asPrepared_trashInUse vacant_trashInUse.1 vacant_trashInUse.2⟩

/-- Where the trash holds a file, Linux refuses and has changed nothing, while macOS has removed
the staging directory by then. -/
theorem clear_allOrNothing_iff_trashInUse :
    AllOrNothing preparedLetter trashInUse (run (fun _ => .new .io "") preparedLetter
        (OnLinux.clearWorkspaceIncomplete preparedLetter) trashInUse) ∧
      ¬AllOrNothing preparedLetter trashInUse (run (fun _ => .new .io "") preparedLetter
        (OnMacOs.clearWorkspaceIncomplete preparedLetter) trashInUse) :=
  have h := clear_allOrNothing_iff (fun _ => .new .io "") preparedLetter trashInUse
    asPrepared_trashInUse
  ⟨h.1, fun hnothing => h.2.mp hnothing vacant_trashInUse⟩

end Prepared
end ThinWorkspace
