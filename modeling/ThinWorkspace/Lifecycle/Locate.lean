/-
# Finding the target that is to be removed

Source: `registered_target`, `locate_target`, `verify_selected_target` and what they call in
`crates/thinws-adapter-linux/src/workspace.rs`.

These functions only read, so each has one rule about a state that stays as it is: what holds of
the state where the function returns, in any world, and what makes it return in a quiet one
(`Finds`).  `Located` is what `locate_target` finds: the target at its own path or at the path it
is isolated to, and never at both.
-/

import ThinWorkspace.Lifecycle.Calls
import ThinWorkspace.Linux.InitSafety

namespace ThinWorkspace
namespace Lifecycle

open ThinWorkspace.Core Lib Ports
open Linux (HistoricalDirectoryIdentity WorkspaceOwnership decodeWorkspaceOwnership absolute
  pathParent pathJoin)
open Program (Achieves Safe Visits)

/-! ### Programs

The functions that find and verify the target, in the order of the source.  All of them only
read. -/

/-- Makes a call.  Its failure is a value of the answer, so that the program can react to it as the
source does with a `match`. -/
abbrev call (c : LifecycleCall) : Handling c.Result := Program.perform c

/-- A call whose failure is reported in other terms. -/
abbrev callOr (c : LifecycleCall) (f : c.Error → PortError) : Handling c.Value :=
  Program.orFail f (call c)

/-- `error` unless `p` holds: the form of the source's checks that return early. -/
def ensure (p : Prop) [Decidable p] (error : PortError) : Handling Unit :=
  if p then pure () else throw error

/-- A value that may be missing, or the failure that stands for it. -/
def orMissing {α : Type} (error : PortError) : Option α → Handling α
  | some a => pure a
  | none => throw error

/-- A computed value, with its failure as the failure of the program. -/
def liftExcept {α ε : Type} (f : ε → PortError) (r : Except ε α) : Handling α :=
  Program.ofExcept f r

/-- `open_target_directory`; the walk along the path is one call. -/
def openTargetDirectory (path : List UInt8) : Handling TargetDirectory := do
  let resolved ← liftExcept id (absolute path)
  let opened ← callOr (.openTarget resolved) id
  pure ⟨path, opened.1, opened.2⟩

/-- `TargetDirectory::revalidate`: the path still leads to the directory that was opened, and the
descriptor that is held still refers to it. -/
def TargetDirectory.revalidate (directory : TargetDirectory) : Handling Unit := do
  let reopened ← openTargetDirectory directory.path
  ensure (directory.device = reopened.device ∧ directory.identity = reopened.identity)
    (.new .invalidLayout "Workspace directory identity changed")
  let held ← callOr (.fstat directory) fun _ => .new .io "inspect held Workspace directory"
  ensure (held.identity = directory.fileIdentity)
    (.new .invalidLayout "held Workspace directory identity changed")

/-- `btrfs_identity`: the filesystem and the mount of an inspected path, which both have to be
known before a target is moved or removed. -/
def btrfsIdentity (report : PathCapabilityReport) : Except PortError (VolumeId × UInt64) :=
  if report.filesystem.typeName ≠ "btrfs" then
    .error (.new .capabilityUnavailable "Workspace target parent must be on Btrfs")
  else match report.filesystem.volumeId.known? with
    | none => .error (.new .capabilityUnavailable "Btrfs FSID is unavailable")
    | some volume => match report.mount.mountId with
      | none => .error (.new .capabilityUnavailable "Btrfs mount ID is unavailable")
      | some mount => .ok (volume, mount)

/-- `require_btrfs_mount`: the directory is the one that is held, on Btrfs, and on the volume and
the mount that were registered. -/
def requireBtrfsMount (directory : TargetDirectory) (expectedVolume : VolumeId)
    (expectedMount : UInt64) : Handling Unit := do
  directory.revalidate
  let path ← liftExcept id (absolute directory.path)
  let report ← callOr (.inspectPath path) id
  ensure (report.resolution = .existingDirectory ∧
      report.ancestry.getLast?.map (·.identity) = some directory.fileIdentity)
    (.new .invalidLayout "Workspace Btrfs mount or directory identity changed")
  let identity ← liftExcept id (btrfsIdentity report)
  ensure (identity = (expectedVolume, expectedMount))
    (.new .invalidLayout "Workspace Btrfs mount or directory identity changed")

variable (euid : UInt32) (toml : TomlLibrary)

/-- `require_private_operation_directory`: the held directory is a directory of the effective user
that nobody else can enter. -/
def requirePrivateOperationDirectory (directory : TargetDirectory) : Handling Unit := do
  let stat ← callOr (.fstat directory) fun _ => .new .io "inspect Workspace operation directory"
  ensure (isPrivateDirectory euid stat = true)
    (.new .invalidLayout "Workspace operation directory owner or mode changed")

/-- `read_workspace_ownership`: the document that proves which target belongs to the workspace,
with the workspace id it has to carry. -/
def readWorkspaceOwnership (id : WorkspaceId) : Handling WorkspaceOwnership := do
  let found ← callOr (.readDocument (.ownership id)) fun e => e
  let bytes ← orMissing (.new .invalidLayout "Workspace ownership proof is missing") found
  let ownership ← liftExcept
    (fun _ => .new .invalidLayout "decode Workspace ownership proof")
    (decodeWorkspaceOwnership toml bytes)
  ensure (ownership.workspaceId = id)
    (.new .invalidLayout "Workspace ownership ID does not match")
  pure ownership

/-- `LinuxDataRootLayout`, as far as it is read here: the instance and the data root whose identity
every ownership repeats. -/
structure Layout where
  instanceId : InstanceId
  dataRoot : AbsolutePath
  dataRootIdentity : FileIdentity

/-- `RegisteredTarget`: the held parent of the target, the two paths at which the target may lie,
and the ownership that says which directory it is. -/
structure RegisteredTarget where
  parent : TargetDirectory
  targetPath : List UInt8
  isolatedPath : List UInt8
  ownership : WorkspaceOwnership

/-- What `registered_target` compares: the reservation of the database and the ownership document
are about one instance, one target path and one filesystem. -/
def Registers (layout : Layout) (reservation : WorkspaceReservation)
    (ownership : WorkspaceOwnership) : Prop :=
  reservation.instanceId = layout.instanceId ∧ ownership.instanceId = reservation.instanceId ∧
    ownership.targetPath = reservation.targetPath ∧
    ownership.volumeId = reservation.targetVolumeId ∧
    reservation.sourceVolumeId = reservation.targetVolumeId

instance (layout : Layout) (reservation : WorkspaceReservation) (ownership : WorkspaceOwnership) :
    Decidable (Registers layout reservation ownership) :=
  inferInstanceAs (Decidable (_ ∧ _ ∧ _ ∧ _ ∧ _))

/-- `registered_target`: the ownership agrees with the reservation, and the parent of the target
path is still the directory the ownership names, on its mount. -/
def registeredTarget (layout : Layout) (reservation : WorkspaceReservation) :
    Handling RegisteredTarget := do
  let ownership ← readWorkspaceOwnership toml reservation.workspaceId
  ensure (Registers layout reservation ownership)
    (.new .invalidLayout "Workspace registration and ownership proof differ")
  let parentPath ← orMissing (.new .invalidLayout "registered target has no parent")
    (pathParent reservation.targetPath)
  let parent ← openTargetDirectory parentPath
  ensure (parent.identity = ownership.parent)
    (.new .invalidLayout "registered Workspace parent identity changed")
  requireBtrfsMount parent ownership.volumeId ownership.mountId
  let isolatedPath :=
    pathJoin parentPath (asBytes (".thinws-remove-" ++ reservation.workspaceId.toText))
  pure ⟨parent, reservation.targetPath.asBytes, isolatedPath, ownership⟩

/-- `open_optional_target`; the parent's descriptor stands for the parent. -/
def openOptionalTarget (path : List UInt8) : Handling (Option TargetDirectory) := do
  let name ← orMissing (.new .invalidLayout "Workspace target has no name")
    (Prepared.fileName path)
  match ← call (.statat name) with
  | .error .noent => pure none
  | .error _ => throw (.new .io "inspect registered Workspace target")
  | .ok _ => do
    let directory ← openTargetDirectory path
    pure (some directory)

/-- The end of `locate_target`, with the directory it has selected. -/
def selectTarget (registered : RegisteredTarget) (directory : TargetDirectory)
    (atIsolatedPath : Bool) : Handling (Option (TargetDirectory × Bool)) := do
  ensure (directory.identity = registered.ownership.target)
    (.new .invalidLayout "registered Workspace target identity changed")
  requireBtrfsMount directory registered.ownership.volumeId registered.ownership.mountId
  registered.parent.revalidate
  pure (some (directory, atIsolatedPath))

/-- `locate_target`: the target under its own path or under the isolated one, but not under both;
the flag says which. -/
def locateTarget (registered : RegisteredTarget) :
    Handling (Option (TargetDirectory × Bool)) := do
  let active ← openOptionalTarget registered.targetPath
  let isolated ← openOptionalTarget registered.isolatedPath
  ensure (¬(isolated.isSome ∧ registered.ownership.isolatedPath.isNone))
    (.new .invalidLayout "unregistered isolated Workspace target exists")
  match active, isolated with
  | some _, some _ =>
    throw (.new .invalidLayout "Workspace target exists at active and isolated paths")
  | some directory, none => selectTarget registered directory false
  | none, some directory => selectTarget registered directory true
  | none, none => pure none

/-- `selected_target_matches`: the target that is found again is the one selected before, by its
path, its identity and its device. -/
def selectedTargetMatches (selected current : TargetDirectory) : Bool :=
  selected.path == current.path && selected.sameIdentityAndDevice current

/-- `verify_selected_target`: under the data root's lock, the ownership is the one read before and
locating the target once more finds the directory that was selected. -/
def verifySelectedTarget (registered : RegisteredTarget) (selected : TargetDirectory) :
    Handling Unit := do
  callOr .dataRootLock fun e => e
  callOr .layout fun e => e
  let current ← readWorkspaceOwnership toml registered.ownership.workspaceId
  ensure (current = registered.ownership)
    (.new .invalidLayout "Workspace ownership proof changed during deletion")
  let located ← locateTarget registered
  let found ← orMissing (.new .notFound "registered Workspace target is missing") located
  selected.revalidate
  ensure (selectedTargetMatches selected found.1 = true)
    (.new .invalidLayout "Workspace deletion target changed")

/-! ### Where it lies

Different names have different paths, and a path leads to one directory at a time. -/

section Places

variable {κ : Type} {site : Site κ} {w : World κ}

/-- Different names in the parent have different paths, since a path ends with its name. -/
theorem Site.path_injective {name other : FileName} (h : site.path name = site.path other) :
    name = other := by
  have hcomponents := congrArg AbsolutePath.components h
  unfold Site.path at hcomponents
  rw [AbsolutePath.components_child, AbsolutePath.components_child] at hcomponents
  obtain ⟨bytes, normal⟩ := name
  obtain ⟨bytes', normal'⟩ := other
  obtain rfl : bytes = bytes' := by simpa using hcomponents
  rfl

/-- No entry of the parent has the parent's own path, so a lookup tells a target from the directory
it lies in. -/
theorem Site.path_ne_parent (name : FileName) : site.path name ≠ site.parent := by
  intro h
  have hcomponents := congrArg AbsolutePath.components h
  unfold Site.path at hcomponents
  rw [AbsolutePath.components_child] at hcomponents
  simp at hcomponents

/-- The parent of a target's path is the site's parent, which is the path that `registered_target`
opens. -/
theorem Site.parent_path (site : Site κ) (name : FileName) :
    (site.path name).parent = site.parent := by
  refine AbsolutePath.components_injective ?_
  unfold Site.path
  rw [AbsolutePath.components_parent, AbsolutePath.components_child, List.dropLast_concat]

/-- A target is never the root directory: its path has at least the component of its name. -/
theorem Site.path_ne_root (site : Site κ) (name : FileName) :
    (site.path name).asBytes ≠ [slash] := by
  intro h
  have hcomponents := AbsolutePath.components_root h
  unfold Site.path at hcomponents
  rw [AbsolutePath.components_child] at hcomponents
  simp at hcomponents

/-- What a path below the parent leads to is the folder the world has under that name, with its
identity and its device. -/
theorem Site.at_path {name : FileName} {identity : HistoricalDirectoryIdentity}
    {device : UInt64} : site.At w (site.path name) identity device ↔
      ∃ folder, w.folder? name.bytes = some folder ∧ folder.identity = identity ∧
        folder.device = device := by
  constructor
  · intro h
    generalize hpath : site.path name = path at h
    cases h with
    | parent => exact absurd hpath (Site.path_ne_parent name)
    | child hfolder =>
      obtain rfl := Site.path_injective hpath
      exact ⟨_, hfolder, rfl, rfl⟩
  · rintro ⟨folder, hfolder, rfl, rfl⟩
    exact .child hfolder

/-- What the parent's path leads to is the site's own directory, whatever lies in it. -/
theorem Site.at_parent {identity : HistoricalDirectoryIdentity} {device : UInt64} :
    site.At w site.parent identity device ↔ identity = site.identity ∧ device = site.device := by
  constructor
  · intro h
    generalize hpath : site.parent = path at h
    cases h with
    | parent => exact ⟨rfl, rfl⟩
    | child hfolder => exact absurd hpath.symm (Site.path_ne_parent _)
  · rintro ⟨rfl, rfl⟩
    exact .parent

/-- A path leads to one directory: two openings of it in the same world agree on the identity and
the device. -/
theorem Site.At.unique {path : AbsolutePath} {i i' : HistoricalDirectoryIdentity} {d d' : UInt64}
    (h : site.At w path i d) (h' : site.At w path i' d') : i = i' ∧ d = d' := by
  cases h with
  | parent =>
    obtain ⟨rfl, rfl⟩ := Site.at_parent.mp h'
    exact ⟨rfl, rfl⟩
  | child hfolder =>
    obtain ⟨folder, hfolder', rfl, rfl⟩ := Site.at_path.mp h'
    obtain rfl := Option.some.inj (hfolder.symm.trans hfolder')
    exact ⟨rfl, rfl⟩

/-- A directory that stands at a name is what its path leads to. -/
theorem Site.Stands.at {directory : TargetDirectory} {name : FileName} {folder : Folder κ}
    (h : site.Stands w directory name folder) :
    site.At w (site.path name) directory.identity directory.device :=
  Site.at_path.mpr ⟨folder, h.named, h.identity, h.device⟩

/-- A held directory stands at one name only, and for one folder: identities are not shared between
names. -/
theorem Site.Stands.unique {directory : TargetDirectory} {name name' : FileName}
    {folder folder' : Folder κ} (h : site.Stands w directory name folder)
    (h' : site.Stands w directory name' folder') : name' = name ∧ folder' = folder := by
  obtain rfl : name' = name :=
    Site.path_injective (AbsolutePath.asBytes_injective (h'.path.symm.trans h.path))
  exact ⟨rfl, Option.some.inj (h'.named.symm.trans h.named)⟩

end Places

/-! ### What reading finds

`Finds` is the specification of a part that only reads: what it found is so in the world as
it is, and in a quiet world it does return.  Its rules follow the code, and every later
module uses them. -/

section Rules

variable {κ : Type} (site : Site κ) (calm : Bool) {w : World κ}

/-- The program only reads, `P` holds where it returns, and in a quiet world it returns. -/
abbrev Finds {α : Type} (P : α → Prop) (x : Handling α) (w : World κ) : Prop :=
  Achieves (environment euid site calm) (fun c _ => c.Reads) (calm = false)
    (fun a w' => w' = w ∧ P a) x w

variable {euid site calm} {α β : Type} {P : α → Prop} {R : β → Prop} {x : Handling α}

/-- A rest that finds something, behind a part that does: it starts with what the part found, in
the same world. -/
theorem Finds.bind {f : α → Handling β} (hx : Finds euid site calm P x w)
    (hf : ∀ a, P a → Finds euid site calm R (f a) w) : Finds euid site calm R (x >>= f) w := by
  refine Achieves.bind hx fun a w' h => ?_
  obtain ⟨rfl, ha⟩ := h
  exact hf a ha

/-- What is found may be said less precisely. -/
theorem Finds.mono {P' : α → Prop} (hx : Finds euid site calm P x w) (h : ∀ a, P a → P' a) :
    Finds euid site calm P' x w :=
  Achieves.mono hx fun a _ ha => ⟨ha.1, h a ha.2⟩

/-- A part that only reads, and a rest with any postcondition: the rest starts from the same world,
and where the part may fail the postcondition has to allow the error. -/
theorem Finds.thenSafe {f : α → Handling β} {post : Except PortError β → World κ → Prop}
    (hx : Finds euid site calm P x w)
    (hf : ∀ a, P a → Safe (environment euid site calm) (fun c _ => c.Reads) post (f a) w)
    (herror : ∀ e w', calm = false → post (.error e) w') :
    Safe (environment euid site calm) (fun c _ => c.Reads) post (x >>= f) w := by
  refine Safe.bind hx (fun a w' h => ?_) herror
  obtain ⟨rfl, ha⟩ := h
  exact hf a ha

/-- A part that only reads leaves the world as it is, however far it gets. -/
theorem eq_of_visits {post : Except PortError α → World κ → Prop} {w' : World κ}
    (h : Safe (environment euid site calm) (fun c _ => c.Reads) post x w)
    (run : Visits (environment euid site calm) x w w') : w' = w :=
  Safe.of_visits (fun s => s = w) h rfl (fun _ _ _ _ hreads hsame hstep =>
    (step_reads euid site hreads hstep).trans hsame) run

/-- A value at hand is found without a call. -/
theorem finds_pure {a : α} (h : P a) : Finds euid site calm P (pure a : Handling α) w := ⟨rfl, h⟩

/-- A failure finds nothing, so it may stand only where the world need not be calm. -/
theorem finds_throw {e : PortError} (h : calm ≠ true) :
    Finds euid site calm P (throw e : Handling α) w :=
  Bool.eq_false_iff.mpr h

/-- A reading call finds a value that its effect allows in an unchanged world; in a calm one it
succeeds, with a genuine value. -/
theorem finds_callOr {c : LifecycleCall} {f : c.Error → PortError} (hreads : c.Reads)
    (hcalm : calm = true → c.Possible euid site w) :
    Finds euid site calm
      (fun value => c.effect euid site w value w ∧ (calm = true → c.genuine site w value))
      (callOr c f) w := by
  refine Program.safe_perform_bind.mpr ⟨hreads, fun r w' hstep => ?_⟩
  obtain rfl := step_reads euid site hreads hstep
  cases r with
  | ok value => exact ⟨rfl, hstep⟩
  | error e =>
    refine finds_throw fun h => ?_
    exact (hstep.2.2 h).2.1 (hcalm h)

/-- A check that passes establishes what it checks; in a calm world it has to hold beforehand. -/
theorem finds_ensure {p : Prop} [Decidable p] {e : PortError} (h : calm = true → p) :
    Finds euid site calm (fun _ => p) (ensure p e) w := by
  unfold ensure
  split
  · rename_i hp
    exact finds_pure hp
  · rename_i hp
    exact finds_throw fun hcalm => hp (h hcalm)

/-- A value that has to be there is the one that was there; in a calm world it is not missing. -/
theorem finds_orMissing {e : PortError} {value : Option α} (h : calm = true → value ≠ none) :
    Finds euid site calm (fun a => value = some a) (orMissing e value) w := by
  cases value with
  | none => exact finds_throw fun hcalm => h hcalm rfl
  | some a => exact finds_pure rfl

/-- A pure step that may fail is found to have succeeded; in a calm world it does succeed. -/
theorem finds_liftExcept {ε : Type} {f : ε → PortError} {r : Except ε α}
    (h : calm = true → ∃ a, r = .ok a) :
    Finds euid site calm (fun a => r = .ok a) (liftExcept f r) w := by
  cases r with
  | ok a => exact finds_pure rfl
  | error e =>
    refine finds_throw fun hcalm => ?_
    obtain ⟨a, ha⟩ := h hcalm
    cases ha

/-! ### What changing does

`Attains` is the same for a part that changes the world: its calls meet a guard, and its
postcondition speaks of the world behind it. -/

section Changes

variable {G : LifecycleCall → World κ → Prop} {T : α → Prop} {P : α → World κ → Prop}
  {R : β → World κ → Prop}

variable (euid site calm G) in
/-- Every call that changes something meets `G`, `P` holds where the program returns, and in a
quiet world it returns. -/
abbrev Attains {α : Type} (P : α → World κ → Prop) (x : Handling α) (w : World κ) : Prop :=
  Achieves (environment euid site calm) (fun c s => c.Reads ∨ G c s) (calm = false) P x w

/-- What only reads attains what it finds, in the world it started in. -/
theorem Finds.attains (h : Finds euid site calm T x w) :
    Attains euid site calm G (fun a w' => w' = w ∧ T a) x w :=
  Achieves.weaken h fun _ _ hreads => .inl hreads

/-- A part that reads, and a rest that may change the world, from the world the part has left as it
was. -/
theorem Finds.andThen {f : α → Handling β} (hx : Finds euid site calm T x w)
    (hf : ∀ a, T a → Attains euid site calm G R (f a) w) :
    Attains euid site calm G R (x >>= f) w := by
  refine Achieves.bind hx.attains fun a w' h => ?_
  obtain ⟨rfl, ha⟩ := h
  exact hf a ha

/-- A call that changes the world attains what its effect says; its guard has to hold before it,
unless the call only reads. -/
theorem attains_callOr {c : LifecycleCall} {f : c.Error → PortError}
    {P : c.Value → World κ → Prop} (hguard : c.Reads ∨ G c w)
    (hcalm : calm = true → c.Possible euid site w)
    (h : ∀ value w', c.effect euid site w value w' → P value w') :
    Attains euid site calm G P (callOr c f) w := by
  refine Program.safe_perform_bind.mpr ⟨hguard, fun r w' hstep => ?_⟩
  cases r with
  | ok value => exact h value w' hstep.1
  | error e =>
    refine Program.achieves_throw (Bool.eq_false_iff.mpr fun hc => ?_)
    exact (hstep.2.2 hc).2.1 (hcalm hc)

end Changes

/-! ### Directories

What a check of a directory tells: that a path leads to it, that it lies on the site's
volume and mount, that it is private. -/

/-- Opening a directory yields its path with the identity and device to which the path leads; in a
calm world it succeeds where the path leads to a directory. -/
theorem finds_openTargetDirectory {path : AbsolutePath}
    (hcalm : calm = true → ∃ identity device, site.At w path identity device) :
    Finds euid site calm (fun directory => directory.path = path.asBytes ∧
      site.At w path directory.identity directory.device) (openTargetDirectory path.asBytes) w := by
  refine Finds.bind (finds_liftExcept fun _ => ⟨path, Linux.absolute_asBytes path⟩)
    fun resolved hresolved => ?_
  rw [Linux.absolute_asBytes] at hresolved
  obtain rfl := Except.ok.inj hresolved
  refine Finds.bind (finds_callOr trivial fun h => ?_) fun opened hopened =>
    finds_pure ⟨rfl, hopened.1.2⟩
  obtain ⟨identity, device, hat⟩ := hcalm h
  exact ⟨(identity, device), w, ⟨rfl, hat⟩, trivial⟩

/-- The file name of an entry's path is that entry's name. -/
theorem finds_fileName {name : FileName} {error : PortError} :
    Finds euid site calm (fun found => found = name.bytes)
      (orMissing error (Prepared.fileName (site.path name).asBytes)) w := by
  have hname : Prepared.fileName (site.path name).asBytes = some name.bytes :=
    Prepared.fileName_child site.parent name
  rw [hname]
  exact (finds_orMissing fun _ => Option.some_ne_none _).mono fun _ h => (Option.some.inj h).symm

/-- A held directory has a `stat`, whatever has become of its path. -/
theorem possible_fstat (directory : TargetDirectory) :
    (LifecycleCall.fstat directory).Possible euid site w := by
  by_cases h : ∃ name folder, site.Stands w directory name folder ∧ folder.isPrivate = true
  · obtain ⟨name, folder, hstands, hprivate⟩ := h
    refine ⟨⟨directory.fileIdentity, .directory, 0o700, euid, 1⟩, w, ⟨rfl, rfl, ?_⟩, trivial⟩
    intro name' folder' hstands'
    rw [(hstands.unique hstands').2, hprivate]
    simp [isPrivateDirectory]
  · refine ⟨⟨directory.fileIdentity, .directory, 0, euid, 1⟩, w, ⟨rfl, rfl, ?_⟩, trivial⟩
    intro name' folder' hstands'
    have hprivate : folder'.isPrivate = false :=
      Bool.eq_false_iff.mpr fun hp => h ⟨name', folder', hstands', hp⟩
    rw [hprivate]
    simp [isPrivateDirectory]

variable {directory : TargetDirectory} {path : AbsolutePath}

/-- A directory that passes its revalidation is what its path leads to at that moment. -/
theorem finds_revalidate (hpath : directory.path = path.asBytes)
    (hcalm : calm = true → site.At w path directory.identity directory.device) :
    Finds euid site calm (fun _ => site.At w path directory.identity directory.device)
      directory.revalidate w := by
  unfold TargetDirectory.revalidate
  rw [hpath]
  refine Finds.bind (finds_openTargetDirectory fun h => ⟨_, _, hcalm h⟩) fun reopened hopened => ?_
  refine Finds.bind (finds_ensure fun h => ?_) fun _ hsame => ?_
  · obtain ⟨hidentity, hdevice⟩ := (hcalm h).unique hopened.2
    exact ⟨hdevice, hidentity⟩
  · have hat : site.At w path directory.identity directory.device := by
      rw [hsame.1, hsame.2]
      exact hopened.2
    refine Finds.bind (finds_callOr trivial fun _ => possible_fstat directory) fun held hheld => ?_
    exact (finds_ensure fun _ => hheld.1.2.1).mono fun _ _ => hat

/-- A report without missing components is one of an existing directory. -/
theorem describing_existing :
    PathResolution.existingDirectory = .existingDirectory ↔ ([] : List (List UInt8)) = [] :=
  iff_of_true rfl rfl

/-- The report of a probe that tells the truth about a directory of the site. -/
def Site.describing (site : Site κ) (path : AbsolutePath)
    (identity : HistoricalDirectoryIdentity) (device : UInt64) : PathCapabilityReport where
  requestedPath := path
  resolution := .existingDirectory
  nearestExistingAncestor := path
  missingComponents := []
  ancestry := [⟨path, ⟨device, identity.inode⟩⟩]
  filesystem := ⟨"btrfs", (0, 0), .known site.volumeId⟩
  mount := ⟨0, true, some site.mountId⟩
  readability := .supported
  writability := site.writability
  cowClone := .supported
  ancestry_ne_nil := List.cons_ne_nil _ _
  existing_iff := describing_existing
  last_ancestry := rfl

/-- The report that the site gives for a path describes the directory with the identity and device
it is about, so a calm inspection has an answer. -/
theorem Site.describes_describing (site : Site κ) (path : AbsolutePath)
    (identity : HistoricalDirectoryIdentity) (device : UInt64) :
    site.Describes (site.describing path identity device) identity device := by
  refine ⟨rfl, rfl, fun entry hentry => ?_, rfl, rfl, rfl, rfl⟩
  obtain rfl := List.mem_singleton.mp hentry
  exact .inr rfl

/-- A report that describes a directory of the site names the site's filesystem and the site's
mount. -/
theorem Site.Describes.btrfsIdentity {report : PathCapabilityReport}
    {identity : HistoricalDirectoryIdentity} {device : UInt64}
    (h : site.Describes report identity device) :
    btrfsIdentity report = .ok (site.volumeId, site.mountId) := by
  unfold Lifecycle.btrfsIdentity
  rw [if_neg (not_not.mpr h.typeName), h.volumeId, h.mountId]

/-- A path that leads to a directory can be inspected. -/
theorem possible_inspectPath {identity : HistoricalDirectoryIdentity} {device : UInt64}
    (h : site.At w path identity device) :
    (LifecycleCall.inspectPath path).Possible euid site w := by
  exact ⟨site.describing path identity device, w, rfl, identity, device, h,
    site.describes_describing path identity device⟩

/-- In a quiet world the check of the mount also tells the mount.  The check passes in a quiet
world only for the volume and the mount of the site. -/
theorem finds_mounted {volume : VolumeId} {mount : UInt64}
    (hpath : directory.path = path.asBytes)
    (hcalm : calm = true → site.At w path directory.identity directory.device ∧
      volume = site.volumeId ∧ mount = site.mountId) :
    Finds euid site calm (fun _ => site.At w path directory.identity directory.device ∧
      (calm = true → volume = site.volumeId ∧ mount = site.mountId))
      (requireBtrfsMount directory volume mount) w := by
  refine Finds.bind (finds_revalidate hpath fun h => (hcalm h).1) fun _ hat => ?_
  rw [hpath]
  refine Finds.bind (finds_liftExcept fun _ => ⟨path, Linux.absolute_asBytes path⟩)
    fun resolved hresolved => ?_
  rw [Linux.absolute_asBytes] at hresolved
  obtain rfl := Except.ok.inj hresolved
  refine Finds.bind (finds_callOr trivial fun _ => possible_inspectPath hat)
    fun report hreport => ?_
  have hdescribes : calm = true → site.Describes report directory.identity directory.device := by
    intro h
    obtain ⟨identity, device, hat', hreport'⟩ := hreport.2 h
    obtain ⟨rfl, rfl⟩ := hat.unique hat'
    exact hreport'
  refine Finds.bind (finds_ensure fun h =>
    ⟨(hdescribes h).resolution, (hdescribes h).last_ancestry⟩) fun _ _ => ?_
  refine Finds.bind (finds_liftExcept fun h => ⟨_, (hdescribes h).btrfsIdentity⟩)
    fun found hfound => ?_
  have htells : calm = true → found = (site.volumeId, site.mountId) := by
    intro h
    rw [(hdescribes h).btrfsIdentity] at hfound
    exact (Except.ok.inj hfound).symm
  refine (finds_ensure fun h => ?_).mono fun _ hsame => ⟨hat, fun h => ?_⟩
  · obtain ⟨-, rfl, rfl⟩ := hcalm h
    exact htells h
  · exact Prod.mk.inj (hsame.symm.trans (htells h))

/-- A directory that passes is at its path, on the site's filesystem and the site's mount; in a
calm world it passes exactly with these two expected. -/
theorem finds_requireBtrfsMount {volume : VolumeId} {mount : UInt64}
    (hpath : directory.path = path.asBytes)
    (hcalm : calm = true → site.At w path directory.identity directory.device ∧
      volume = site.volumeId ∧ mount = site.mountId) :
    Finds euid site calm (fun _ => site.At w path directory.identity directory.device)
      (requireBtrfsMount directory volume mount) w :=
  (finds_mounted hpath hcalm).mono fun _ h => h.1

/-- A standing directory that passes is private; in a calm world a private one passes. -/
theorem finds_requirePrivate {name : FileName} {folder : Folder κ}
    (hstands : site.Stands w directory name folder)
    (hcalm : calm = true → folder.isPrivate = true) :
    Finds euid site calm (fun _ => folder.isPrivate = true)
      (requirePrivateOperationDirectory euid directory) w := by
  refine Finds.bind (finds_callOr trivial fun _ => possible_fstat directory) fun stat hstat => ?_
  have hprivate := hstat.1.2.2 name folder hstands
  refine (finds_ensure fun h => ?_).mono fun _ h => ?_
  · rw [hprivate]
    exact hcalm h
  · rw [← hprivate]
    exact h

/-! ### The ownership

A workspace has one ownership document.  What is read of it is valid, since the decoder
checks it. -/

variable {toml}

/-- The ownership that the metadata directory has for the workspace: a document under the
workspace's name that decodes to it, for that very workspace. -/
def Documented (toml : TomlLibrary) (w : World κ) (id : WorkspaceId)
    (ownership : WorkspaceOwnership) : Prop :=
  ownership.workspaceId = id ∧ ∃ bytes, w.documents (.ownership id) = some bytes ∧
    decodeWorkspaceOwnership toml bytes = .ok ownership

/-- A workspace has one ownership in a world, since it has one document. -/
theorem Documented.unique {id : WorkspaceId} {ownership ownership' : WorkspaceOwnership}
    (h : Documented toml w id ownership) (h' : Documented toml w id ownership') :
    ownership' = ownership := by
  obtain ⟨-, bytes, hbytes, hdecode⟩ := h
  obtain ⟨-, bytes', hbytes', hdecode'⟩ := h'
  obtain rfl := Option.some.inj (hbytes'.symm.trans hbytes)
  exact Except.ok.inj (hdecode'.symm.trans hdecode)

/-- A documented ownership keeps the invariant that its decoder checks. -/
theorem Documented.valid {id : WorkspaceId} {ownership : WorkspaceOwnership}
    (h : Documented toml w id ownership) : ownership.Valid := by
  obtain ⟨-, bytes, -, hdecode⟩ := h
  exact Linux.roundTrips_ownership.valid bytes ownership hdecode

/-- An ownership stays documented while its own document stays, whatever else changes. -/
theorem Documented.congr {w' : World κ} {id : WorkspaceId} {ownership : WorkspaceOwnership}
    (h : Documented toml w id ownership)
    (hkept : w'.documents (.ownership id) = w.documents (.ownership id)) :
    Documented toml w' id ownership := by
  obtain ⟨hid, bytes, hbytes, hdecode⟩ := h
  exact ⟨hid, bytes, hkept.trans hbytes, hdecode⟩

/-- The limit up to which a document is read does not matter: a longer one is refused with and
without it. -/
theorem decodeWorkspaceOwnership_take (bytes : List UInt8) :
    decodeWorkspaceOwnership toml (bytes.take Linux.readLimit) =
      decodeWorkspaceOwnership toml bytes := by
  unfold decodeWorkspaceOwnership
  rw [Linux.decodeToml_take]

/-- Reading the ownership yields the documented one; in a calm world it succeeds where there is
one.  The document is read, decoded and compared with the identifier it was asked for. -/
theorem finds_readWorkspaceOwnership {id : WorkspaceId}
    (hcalm : calm = true → ∃ ownership, Documented toml w id ownership) :
    Finds euid site calm (Documented toml w id) (readWorkspaceOwnership toml id) w := by
  refine Finds.bind (finds_callOr trivial fun _ => ⟨_, w, ⟨rfl, rfl⟩, trivial⟩)
    fun found hfound => ?_
  have hfound' := hfound.1.2
  have hread : calm = true → ∃ bytes ownership, found = some bytes ∧
      decodeWorkspaceOwnership toml bytes = .ok ownership ∧ ownership.workspaceId = id := by
    intro h
    obtain ⟨ownership, hid, bytes, hbytes, hdecode⟩ := hcalm h
    refine ⟨_, ownership, by rw [hfound', hbytes]; rfl, ?_, hid⟩
    rw [decodeWorkspaceOwnership_take]
    exact hdecode
  refine Finds.bind (finds_orMissing fun h => ?_) fun bytes hbytes => ?_
  · obtain ⟨bytes, _, hbytes, -⟩ := hread h
    rw [hbytes]
    exact Option.some_ne_none bytes
  · refine Finds.bind (finds_liftExcept fun h => ?_) fun ownership hdecode => ?_
    · obtain ⟨bytes', ownership, hbytes', hdecode, -⟩ := hread h
      obtain rfl := Option.some.inj (hbytes.symm.trans hbytes')
      exact ⟨ownership, hdecode⟩
    · refine Finds.bind (finds_ensure fun h => ?_) fun _ hid => finds_pure ⟨hid, ?_⟩
      · obtain ⟨bytes', ownership', hbytes', hdecode', hid⟩ := hread h
        obtain rfl := Option.some.inj (hbytes.symm.trans hbytes')
        obtain rfl := Except.ok.inj (hdecode.symm.trans hdecode')
        exact hid
      · rw [hbytes] at hfound'
        cases hstored : w.documents (.ownership id) with
        | none =>
          rw [hstored] at hfound'
          cases hfound'
        | some stored =>
          rw [hstored] at hfound'
          obtain rfl := Option.some.inj hfound'
          rw [decodeWorkspaceOwnership_take] at hdecode
          exact ⟨stored, rfl, hdecode⟩

/-! ### The target

The target is searched under both of its paths.  What is found is the directory that the
ownership names, and verifying it repeats the search behind a fresh reading of the
ownership. -/

section Target

variable (site) (leaf : FileName) (id : WorkspaceId)

/-- The name to which a target is isolated is one of the sibling names that the data root keeps for
the workspace. -/
theorem isolatedName_mem (id : WorkspaceId) :
    Application.isolatedName id ∈ Application.siblingNames id :=
  List.mem_cons_of_mem _ (List.mem_cons_of_mem _ List.mem_cons_self)

/-- The name to which a target is isolated: `.thinws-remove-` and the workspace's id, which is a
proper file name. -/
def isolated (id : WorkspaceId) : FileName :=
  ⟨Application.isolatedName id, Application.normal_siblingName (isolatedName_mem id)⟩

/-- The name of the target before its isolation (`false`) and after it (`true`). -/
def place : Bool → FileName
  | false => leaf
  | true => isolated id

/-- The directory is the target of the ownership, at its own path or where it is isolated. -/
structure Located (w : World κ) (ownership : WorkspaceOwnership) (directory : TargetDirectory)
    (atIsolatedPath : Bool) : Prop where
  stands : ∃ folder, site.Stands w directory (place leaf id atIsolatedPath) folder
  identity : directory.identity = ownership.target
  other : w.children (place leaf id !atIsolatedPath).bytes = none
  registered : atIsolatedPath = true → ownership.isolatedPath.isSome = true

/-- What `locate_target` finds: a target at one of its two places and not at the other, or nothing
at either of them. -/
def Found (w : World κ) (ownership : WorkspaceOwnership) :
    Option (TargetDirectory × Bool) → Prop
  | none => ∀ atIsolatedPath, w.children (place leaf id atIsolatedPath).bytes = none
  | some located => Located site leaf id w ownership located.1 located.2

/-- The target is at one of its places, as a directory that `locate_target` accepts, or it is gone
from both. -/
def Placed (w : World κ) (ownership : WorkspaceOwnership) : Prop :=
  (∀ atIsolatedPath, w.children (place leaf id atIsolatedPath).bytes = none) ∨
    ∃ directory atIsolatedPath, Located site leaf id w ownership directory atIsolatedPath

/-- What is held of a registered target is what it was registered with. -/
structure Sound (calm : Bool) (registered : RegisteredTarget) : Prop where
  parent_path : registered.parent.path = site.parent.asBytes
  parent_identity : registered.parent.identity = site.identity
  parent_device : registered.parent.device = site.device
  targetPath : registered.targetPath = (site.path leaf).asBytes
  isolatedPath : registered.isolatedPath = (site.path (isolated id)).asBytes
  workspaceId : registered.ownership.workspaceId = id
  ownership_targetPath : registered.ownership.targetPath = site.path leaf
  valid : registered.ownership.Valid
  mounted : calm = true →
    registered.ownership.volumeId = site.volumeId ∧ registered.ownership.mountId = site.mountId

variable {site leaf id} {ownership : WorkspaceOwnership}

/-- The held parent of a sound registration is the directory the parent's path leads to. -/
theorem Sound.parent_at {registered : RegisteredTarget} (h : Sound site leaf id calm registered) :
    site.At w site.parent registered.parent.identity registered.parent.device :=
  Site.at_parent.mpr ⟨h.parent_identity, h.parent_device⟩

/-- Opening a name that may be absent finds that it is absent, or finds the directory that stands
there.  The name is looked up first, and only where something is there is it opened as a directory.
-/
theorem finds_openOptionalTarget {name : FileName}
    (hcalm : calm = true → w.children name.bytes = none ∨
      ∃ folder, w.folder? name.bytes = some folder) :
    Finds euid site calm (fun found => match found with
      | none => w.children name.bytes = none
      | some directory => ∃ folder, site.Stands w directory name folder)
      (openOptionalTarget (site.path name).asBytes) w := by
  unfold openOptionalTarget
  rw [show Prepared.fileName (site.path name).asBytes = some name.bytes from
    Prepared.fileName_child site.parent name]
  refine Finds.bind (finds_orMissing fun _ => Option.some_ne_none _) fun found hfound => ?_
  obtain rfl := Option.some.inj hfound
  refine Program.safe_perform_bind.mpr ⟨trivial, fun r w' hstep => ?_⟩
  obtain rfl := step_reads euid site (c := .statat name.bytes) trivial hstep
  have hopen : (calm = true → ∃ folder, w'.folder? name.bytes = some folder) →
      Finds euid site calm (fun found => match found with
        | none => w'.children name.bytes = none
        | some directory => ∃ folder, site.Stands w' directory name folder)
        (openTargetDirectory (site.path name).asBytes >>= fun directory =>
          (pure (some directory) : Handling _)) w' := by
    intro h
    refine Finds.bind (finds_openTargetDirectory fun hc => ?_) fun directory hdirectory =>
      finds_pure ?_
    · obtain ⟨folder, hfolder⟩ := h hc
      exact ⟨_, _, .child hfolder⟩
    · obtain ⟨folder, hfolder, hidentity, hdevice⟩ := Site.at_path.mp hdirectory.2
      exact ⟨folder, hdirectory.1, hfolder, hidentity, hdevice⟩
  cases r with
  | ok stat =>
    obtain ⟨⟨-, child, hchild, -⟩, -⟩ := hstep
    refine hopen fun hc => (hcalm hc).resolve_left ?_
    rw [hchild]
    exact Option.some_ne_none child
  | error e =>
    cases e with
    | noent => exact finds_pure hstep.1
    | exist | other =>
      refine finds_throw fun hc => ?_
      have happarent := (hstep.2.2 hc).2.2
      cases happarent

/-- The selected directory has the identity that the ownership gives for the target; in a calm
world that is enough for the selection to succeed. -/
theorem finds_selectTarget {registered : RegisteredTarget}
    (hsound : Sound site leaf id calm registered) {directory : TargetDirectory}
    (atIsolatedPath : Bool) {folder : Folder κ}
    (hstands : site.Stands w directory (place leaf id atIsolatedPath) folder)
    (hcalm : calm = true → directory.identity = registered.ownership.target) :
    Finds euid site calm (fun found => found = some (directory, atIsolatedPath) ∧
      directory.identity = registered.ownership.target)
      (selectTarget registered directory atIsolatedPath) w := by
  refine Finds.bind (finds_ensure hcalm) fun _ hidentity => ?_
  refine Finds.bind (finds_requireBtrfsMount hstands.path fun h => ⟨hstands.at, hsound.mounted h⟩)
    fun _ _ => ?_
  exact Finds.bind (finds_revalidate hsound.parent_path fun _ => hsound.parent_at) fun _ _ =>
    finds_pure ⟨rfl, hidentity⟩

/-- In a placed world there is nothing or a directory at each place. -/
theorem Placed.optional (h : Placed site leaf id w ownership) (atIsolatedPath : Bool) :
    w.children (place leaf id atIsolatedPath).bytes = none ∨
      ∃ folder, w.folder? (place leaf id atIsolatedPath).bytes = some folder := by
  rcases h with hgone | ⟨directory, found, hlocated⟩
  · exact .inl (hgone atIsolatedPath)
  · obtain ⟨folder, hstands⟩ := hlocated.stands
    by_cases hfound : atIsolatedPath = found
    · rw [hfound]
      exact .inr ⟨folder, hstands.named⟩
    · rw [Bool.eq_not_of_ne hfound]
      exact .inl hlocated.other

/-- In a placed world a directory that stands at one of the places is the target.  Either the
target is gone from both places, which the directory contradicts, or it is located at the one where
the directory stands. -/
theorem Placed.located (h : Placed site leaf id w ownership) {directory : TargetDirectory}
    (atIsolatedPath : Bool) {folder : Folder κ}
    (hstands : site.Stands w directory (place leaf id atIsolatedPath) folder) :
    Located site leaf id w ownership directory atIsolatedPath := by
  have hchild := World.children_of_folder? w hstands.named
  rcases h with hgone | ⟨other, found, hlocated⟩
  · rw [hgone] at hchild
    cases hchild
  · by_cases hfound : atIsolatedPath = found
    · subst hfound
      obtain ⟨folder', hstands'⟩ := hlocated.stands
      obtain rfl := Option.some.inj (hstands.named.symm.trans hstands'.named)
      have hidentity := hstands.identity.symm.trans hstands'.identity
      exact ⟨⟨folder, hstands⟩, hidentity.trans hlocated.identity, hlocated.other,
        hlocated.registered⟩
    · have hnone := hlocated.other
      rw [← Bool.eq_not_of_ne hfound, hchild] at hnone
      cases hnone

/-- **`locate_target` finds the target where it is**: what it returns is so in the world it leaves
unchanged, and in a calm world with the target in its place, or gone, it returns. -/
theorem finds_locateTarget {registered : RegisteredTarget}
    (hsound : Sound site leaf id calm registered)
    (hcalm : calm = true → Placed site leaf id w registered.ownership) :
    Finds euid site calm (Found site leaf id w registered.ownership) (locateTarget registered)
      w := by
  unfold locateTarget
  rw [hsound.targetPath, hsound.isolatedPath]
  refine Finds.bind (finds_openOptionalTarget fun h => (hcalm h).optional false)
    fun active hactive => ?_
  refine Finds.bind (finds_openOptionalTarget fun h => (hcalm h).optional true)
    fun isolated hisolated => ?_
  refine Finds.bind (finds_ensure fun h => ?_) fun _ hregistered => ?_
  · rintro ⟨hsome, hnone⟩
    obtain ⟨directory, rfl⟩ := Option.isSome_iff_exists.mp hsome
    obtain ⟨folder, hstands⟩ := hisolated
    have hreg := ((hcalm h).located true hstands).registered rfl
    rw [Option.isNone_iff_eq_none.mp hnone] at hreg
    cases hreg
  · cases active with
    | none =>
      cases isolated with
      | none =>
        refine finds_pure fun atIsolatedPath => ?_
        cases atIsolatedPath
        · exact hactive
        · exact hisolated
      | some directory =>
        obtain ⟨folder, hstands⟩ := hisolated
        refine (finds_selectTarget hsound true hstands fun h =>
          ((hcalm h).located true hstands).identity).mono fun found h => ?_
        obtain ⟨rfl, hidentity⟩ := h
        refine ⟨⟨folder, hstands⟩, hidentity, hactive, fun _ => ?_⟩
        rw [Option.isSome_iff_ne_none]
        exact fun hnone => hregistered ⟨rfl, Option.isNone_iff_eq_none.mpr hnone⟩
    | some directory =>
      obtain ⟨folder, hstands⟩ := hactive
      cases isolated with
      | none =>
        refine (finds_selectTarget hsound false hstands fun h =>
          ((hcalm h).located false hstands).identity).mono fun found h => ?_
        obtain ⟨rfl, hidentity⟩ := h
        exact ⟨⟨folder, hstands⟩, hidentity, hisolated, nofun⟩
      | some other =>
        obtain ⟨folder', hstands'⟩ := hisolated
        refine finds_throw fun h => ?_
        have hother := ((hcalm h).located false hstands).other
        have hchild := World.children_of_folder? w hstands'.named
        rw [Bool.not_false, show (place leaf id true) = Lifecycle.isolated id from rfl, hchild]
          at hother
        cases hother

/-- Where the target is located, and which directory it is, is told by its path. -/
theorem Located.congr {selected current : TargetDirectory} {atIsolatedPath : Bool}
    (h : Located site leaf id w ownership current atIsolatedPath)
    (hmatches : selectedTargetMatches selected current = true) :
    Located site leaf id w ownership selected atIsolatedPath := by
  obtain ⟨path, identity, device⟩ := selected
  obtain ⟨path', identity', device'⟩ := current
  simp only [selectedTargetMatches, TargetDirectory.sameIdentityAndDevice, Bool.and_eq_true,
    beq_iff_eq] at hmatches
  obtain ⟨rfl, rfl, rfl⟩ := hmatches
  exact h

/-- A target is located at one place only, as one directory.  If the places differed, one of them
would be both taken and free, and what stands at one place is determined by its name. -/
theorem Located.unique {directory directory' : TargetDirectory} {atIsolatedPath found : Bool}
    (h : Located site leaf id w ownership directory atIsolatedPath)
    (h' : Located site leaf id w ownership directory' found) :
    found = atIsolatedPath ∧ directory' = directory := by
  obtain ⟨folder, hstands⟩ := h.stands
  obtain ⟨folder', hstands'⟩ := h'.stands
  by_cases hfound : found = atIsolatedPath
  · subst hfound
    obtain rfl := Option.some.inj (hstands.named.symm.trans hstands'.named)
    obtain ⟨path, identity, device⟩ := directory
    obtain ⟨path', identity', device'⟩ := directory'
    obtain rfl : path' = path := hstands'.path.trans hstands.path.symm
    obtain rfl : identity' = identity := hstands'.identity.symm.trans hstands.identity
    obtain rfl : device' = device := hstands'.device.symm.trans hstands.device
    exact ⟨rfl, rfl⟩
  · have hnone := h.other
    rw [← Bool.eq_not_of_ne hfound, World.children_of_folder? w hstands'.named] at hnone
    cases hnone

/-- What a verified target has shown: the ownership is as it was, and the target is where it was
found. -/
structure Verified (toml : TomlLibrary) (site : Site κ) (leaf : FileName) (id : WorkspaceId)
    (w : World κ) (ownership : WorkspaceOwnership) (directory : TargetDirectory) : Prop where
  documented : Documented toml w id ownership
  located : ∃ atIsolatedPath, Located site leaf id w ownership directory atIsolatedPath

/-- The selected target is verified against a fresh reading of the ownership and a fresh search; in
a calm world a target that is as selected passes. -/
theorem finds_verifySelectedTarget {registered : RegisteredTarget} {selected : TargetDirectory}
    {path : AbsolutePath} (hsound : Sound site leaf id calm registered)
    (hpath : selected.path = path.asBytes)
    (hcalm : calm = true → Verified toml site leaf id w registered.ownership selected) :
    Finds euid site calm (fun _ => Verified toml site leaf id w registered.ownership selected)
      (verifySelectedTarget toml registered selected) w := by
  unfold verifySelectedTarget
  rw [hsound.workspaceId]
  refine Finds.bind (finds_callOr trivial fun _ => ⟨(), w, rfl, trivial⟩) fun _ _ => ?_
  refine Finds.bind (finds_callOr trivial fun _ => ⟨(), w, rfl, trivial⟩) fun _ _ => ?_
  refine Finds.bind (finds_readWorkspaceOwnership fun h => ⟨_, (hcalm h).documented⟩)
    fun current hcurrent => ?_
  refine Finds.bind (finds_ensure fun h => (hcalm h).documented.unique hcurrent) fun _ hsame => ?_
  rw [hsame] at hcurrent
  refine Finds.bind (finds_locateTarget hsound fun h => .inr ⟨selected, (hcalm h).located⟩)
    fun located hlocated => ?_
  refine Finds.bind (finds_orMissing fun h => ?_) fun found hfound => ?_
  · rintro rfl
    obtain ⟨atIsolatedPath, hat⟩ := (hcalm h).located
    obtain ⟨folder, hstands⟩ := hat.stands
    have hchild := World.children_of_folder? w hstands.named
    rw [hlocated atIsolatedPath] at hchild
    cases hchild
  · rw [hfound] at hlocated
    have hfoundAt : Located site leaf id w registered.ownership found.1 found.2 := hlocated
    refine Finds.bind (finds_revalidate hpath fun h => ?_) fun _ _ => ?_
    · obtain ⟨atIsolatedPath, hat⟩ := (hcalm h).located
      obtain ⟨folder, hstands⟩ := hat.stands
      obtain rfl : path = site.path (place leaf id atIsolatedPath) :=
        AbsolutePath.asBytes_injective (hpath.symm.trans hstands.path)
      exact hstands.at
    · refine (finds_ensure fun h => ?_).mono fun _ hmatches =>
        ⟨hcurrent, found.2, hfoundAt.congr hmatches⟩
      obtain ⟨atIsolatedPath, hat⟩ := (hcalm h).located
      rw [(hfoundAt.unique hat).2]
      simp [selectedTargetMatches, TargetDirectory.sameIdentityAndDevice]

/-- What the site, the layout and the reservation say of an ownership that is theirs. -/
structure Recorded (site : Site κ) (layout : Layout) (reservation : WorkspaceReservation)
    (ownership : WorkspaceOwnership) : Prop where
  registers : Registers layout reservation ownership
  parent : ownership.parent = site.identity
  volumeId : ownership.volumeId = site.volumeId
  mountId : ownership.mountId = site.mountId

/-- `registered_target` yields a registration that is sound for the site and documented in the
world; in a calm world it does so for a recorded ownership. -/
theorem finds_registeredTarget {layout : Layout} {reservation : WorkspaceReservation}
    (htarget : reservation.targetPath = site.path leaf)
    (hcalm : calm = true → ∃ ownership, Documented toml w reservation.workspaceId ownership ∧
      Recorded site layout reservation ownership) :
    Finds euid site calm (fun registered =>
      Documented toml w reservation.workspaceId registered.ownership ∧
        Sound site leaf reservation.workspaceId calm registered ∧
        Registers layout reservation registered.ownership)
      (registeredTarget toml layout reservation) w := by
  have hrecorded : ∀ ownership, Documented toml w reservation.workspaceId ownership →
      calm = true → Recorded site layout reservation ownership := by
    intro ownership hdocumented h
    obtain ⟨recorded, hrecorded, hmine⟩ := hcalm h
    obtain rfl := hdocumented.unique hrecorded
    exact hmine
  have hroot : reservation.targetPath.asBytes ≠ [slash] := by
    rw [htarget]
    exact site.path_ne_root leaf
  have hparent : pathParent reservation.targetPath = some site.parent.asBytes := by
    rw [Linux.pathParent_eq hroot, htarget]
    exact congrArg (some ∘ AbsolutePath.asBytes) (site.parent_path leaf)
  unfold registeredTarget
  rw [hparent]
  refine Finds.bind (finds_readWorkspaceOwnership fun h => (hcalm h).imp fun _ ho => ho.1)
    fun ownership hdocumented => ?_
  refine Finds.bind (finds_ensure fun h => (hrecorded ownership hdocumented h).registers)
    fun _ hregisters => ?_
  refine Finds.bind (finds_orMissing fun _ => Option.some_ne_none _) fun parentPath hpath => ?_
  obtain rfl := Option.some.inj hpath
  refine Finds.bind (finds_openTargetDirectory fun _ => ⟨_, _, .parent⟩) fun parent hopened => ?_
  obtain ⟨hidentity, hdevice⟩ := Site.at_parent.mp hopened.2
  refine Finds.bind (finds_ensure fun h => ?_) fun _ hsame => ?_
  · rw [hidentity, (hrecorded ownership hdocumented h).parent]
  · refine Finds.bind (finds_requireBtrfsMount hopened.1 fun h => ⟨hopened.2,
      (hrecorded ownership hdocumented h).volumeId, (hrecorded ownership hdocumented h).mountId⟩)
      fun _ _ => ?_
    refine finds_pure ⟨hdocumented, ⟨hopened.1, hidentity, hdevice, ?_, ?_, hdocumented.1, ?_,
      hdocumented.valid, fun h => ⟨(hrecorded ownership hdocumented h).volumeId,
        (hrecorded ownership hdocumented h).mountId⟩⟩, hregisters⟩
    · rw [htarget]
    · exact Linux.pathJoin_eq (isolated reservation.workspaceId).normal
    · rw [hregisters.2.2.1, htarget]

end Target

end Rules

end Lifecycle
end ThinWorkspace
