/-
# The creation of a workspace's directories

Source: `prepare_workspace`, `LinuxPreparedWorkspace::revalidate`, `create_child` and what they
call in `crates/thinws-adapter-linux/src/workspace.rs`.

A directory is staged under a name that is new and then renamed to its place, so that nothing is
ever replaced.  The ownership is written last.  The parts of the long function are functions of
their own here, in the order of the source.

`attains_createChild` is the rule of one directory: where it returns, the directory is there and
nothing else has changed, but that in a world whose calls fail there may be staged directories
left (`Littered`).
-/

import ThinWorkspace.Lifecycle.Permitted

namespace ThinWorkspace
namespace Lifecycle

open ThinWorkspace.Core Lib Ports
open Linux (WorkspaceOwnership OperationDirectoryOwnership HistoricalDirectoryIdentity
  encodeWorkspaceOwnership documentError absolute containsPath pathParent pathJoin)
open Program (Achieves Safe)

/-! ### Programs

The functions of the creation, in the order of the source.  A directory is staged under a
fresh name and renamed, as a document is. -/

section Programs

variable (euid : UInt32) (toml : TomlLibrary)

/-- `sync_directory` of `publication.rs`, of the parent: the names in it are made to last. -/
def syncDirectory : Handling Unit :=
  callOr .syncParent fun _ => .new .io "sync Linux control directory"

/-- `require_absent_child`: the name has no entry; anything there occupies the target. -/
def requireAbsentChild (name : List UInt8) : Handling Unit := do
  match ← call (.statat name) with
  | .ok _ => throw (.new .notEmpty "Workspace target is occupied")
  | .error .noent => pure ()
  | .error _ => throw (.new .io "inspect Workspace target leaf")

/-- `cleanup_staged_child`: a staged directory that could not be published is removed if the name
still leads to it; a failure of that is not reported. -/
def cleanupStagedChild (name : List UInt8) (staged : TargetDirectory) : Handling Unit := do
  match ← call (.statat name) with
  | .error _ => pure ()
  | .ok named =>
    if named.identity = staged.fileIdentity ∧ named.kind = .directory then do
      let _ ← call (.rmdir name)
      let _ ← call .syncParent
      pure ()
    else pure ()

/-- A staged directory is published, in `create_child`: the rename replaces nothing, and a failure
takes the staged directory with it. -/
def publishChild (parent : TargetDirectory) (name temporary : List UInt8)
    (staged : TargetDirectory) : Handling TargetDirectory := do
  match ← call (.renameNoreplace temporary name) with
  | .error e => do
    cleanupStagedChild temporary staged
    throw (if e = .exist then .new .notEmpty "Workspace target became occupied"
      else .new .io "publish Workspace directory")
  | .ok _ => do
    let published := { staged with path := pathJoin parent.path name }
    syncDirectory
    published.revalidate
    parent.revalidate
    pure published

/-- One round of `create_child`, or `none` where the name to stage under is taken. -/
def createOnce (parent : TargetDirectory) (name : List UInt8) :
    Handling (Option TargetDirectory) := do
  let uuid ← callOr .newUuid fun e => nomatch e
  let temporary := temporaryName uuid
  match ← call (.mkdir temporary) with
  | .error .exist => pure none
  | .error _ => throw (.new .io "stage Workspace directory")
  | .ok _ => do
    syncDirectory
    let staged ← openTargetDirectory (pathJoin parent.path temporary)
    requirePrivateOperationDirectory euid staged
    parent.revalidate
    let created ← publishChild parent name temporary staged
    pure (some created)

/-- The loop of `create_child`, with the rounds it has left. -/
def createRounds (parent : TargetDirectory) (name : List UInt8) : ℕ → Handling TargetDirectory
  | 0 => throw (.new .io "allocate Workspace staging name")
  | rounds + 1 => do
    match ← createOnce euid parent name with
    | some created => pure created
    | none => createRounds parent name rounds

/-- `create_child`: a name that is free in a parent that is held; at most 32 staging names are
tried. -/
def createChild (parent : TargetDirectory) (name : List UInt8) : Handling TargetDirectory := do
  parent.revalidate
  requireAbsentChild name
  createRounds euid parent name 32

/-- `LinuxPreparedWorkspace`: the four directories that are held, and what was registered of them.
-/
structure PreparedWorkspace where
  parent : TargetDirectory
  root : TargetDirectory
  staging : TargetDirectory
  trash : TargetDirectory
  ownership : WorkspaceOwnership
  targetRoot : AbsolutePath
  stagingRoot : AbsolutePath
  trashRoot : AbsolutePath

/-- What `LinuxPreparedWorkspace::revalidate` compares with the ownership: four identities and
three paths. -/
def PreparedWorkspace.Matches (prepared : PreparedWorkspace) : Prop :=
  prepared.ownership.parent = prepared.parent.identity ∧
    prepared.ownership.target = prepared.root.identity ∧
    prepared.ownership.staging.identity = prepared.staging.identity ∧
    prepared.ownership.trash.identity = prepared.trash.identity ∧
    prepared.ownership.targetPath = prepared.targetRoot ∧
    prepared.ownership.staging.path = prepared.stagingRoot ∧
    prepared.ownership.trash.path = prepared.trashRoot

instance (prepared : PreparedWorkspace) : Decidable prepared.Matches :=
  inferInstanceAs (Decidable (_ ∧ _ ∧ _ ∧ _ ∧ _ ∧ _ ∧ _))

/-- The round over the children in `LinuxPreparedWorkspace::revalidate`. -/
def PreparedWorkspace.revalidateChild (prepared : PreparedWorkspace) (child : TargetDirectory) :
    Handling Unit := do
  child.revalidate
  let path ← liftExcept id (absolute child.path)
  ensure (pathParent path = some prepared.parent.path)
    (.new .invalidLayout "Workspace directory moved outside its registered parent")
  requireBtrfsMount child prepared.ownership.volumeId prepared.ownership.mountId

/-- `LinuxPreparedWorkspace::revalidate`: every directory is the one that is held, still private
and on its mount, and the registered ownership is unchanged. -/
def PreparedWorkspace.revalidate (prepared : PreparedWorkspace) : Handling Unit := do
  prepared.parent.revalidate
  [prepared.root, prepared.staging, prepared.trash].forM prepared.revalidateChild
  [prepared.staging, prepared.trash].forM (requirePrivateOperationDirectory euid)
  requireBtrfsMount prepared.parent prepared.ownership.volumeId prepared.ownership.mountId
  ensure prepared.Matches
    (.new .invalidLayout "Workspace ownership no longer matches the held directories")
  callOr (.validateDocument (.ownership prepared.ownership.workspaceId)) fun e => e
  let current ← readWorkspaceOwnership toml prepared.ownership.workspaceId
  ensure (current = prepared.ownership)
    (.new .invalidLayout "Workspace ownership proof changed")

/-- The target and the control root overlap: by their paths, or because the control root is a
directory on the way to the target. -/
def Overlaps (layout : Layout) (report : PathCapabilityReport) (target : AbsolutePath) : Prop :=
  (∃ entry ∈ report.ancestry, entry.identity = layout.dataRootIdentity) ∨
    containsPath target.asBytes layout.dataRoot.asBytes = true ∨
    containsPath layout.dataRoot.asBytes target.asBytes = true

instance (layout : Layout) (report : PathCapabilityReport) (target : AbsolutePath) :
    Decidable (Overlaps layout report target) :=
  inferInstanceAs (Decidable (_ ∨ _ ∨ _))

/-- What `prepare_workspace` knows of the parent before it creates anything. -/
structure Admission where
  parent : TargetDirectory
  leaf : List UInt8
  volumeId : VolumeId
  mountId : UInt64

/-- The checks of `prepare_workspace` on the target and its parent. -/
def admitTarget (layout : Layout) (id : WorkspaceId) (target : AbsolutePath) :
    Handling Admission := do
  callOr .dataRootLock fun e => e
  callOr .layout fun e => e
  let parentPath ← orMissing (.new .invalidData "target has no parent") (pathParent target)
  let leaf ← orMissing (.new .invalidData "target has no final component")
    (Prepared.fileName target.asBytes)
  let parent ← openTargetDirectory parentPath
  let inspected ← liftExcept (fun e => e) (absolute parentPath)
  let report ← callOr (.inspectPath inspected) fun e => e
  ensure (report.resolution = .existingDirectory ∧
      report.ancestry.getLast?.map (·.identity) = some parent.fileIdentity)
    (.new .invalidLayout "Workspace target parent changed before creation")
  ensure (¬Overlaps layout report target)
    (.new .invalidLayout "Workspace target overlaps the control root")
  let identity ← liftExcept (fun e => e) (btrfsIdentity report)
  ensure (report.writability = .supported)
    (.new .capabilityUnavailable "Workspace target parent is not writable")
  ensure ((Application.siblingNames id).contains leaf = false)
    (.new .invalidLayout "Workspace target collides with an operation directory name")
  pure ⟨parent, leaf, identity.1, identity.2⟩

/-- The checks of `prepare_workspace` that nothing is there yet. -/
def requireVacant (id : WorkspaceId) (leaf : List UInt8) : Handling Unit := do
  let same ← callOr .metadataDirectory fun e => e
  ensure (same = true)
    (.new .invalidLayout "Workspace ownership metadata directory changed")
  let found ← callOr (.readDocument (.ownership id)) fun e => e
  ensure (found.isNone = true)
    (.conflict "Workspace ownership proof already exists" .workspaceId)
  [leaf, Application.stagingName id, Application.trashName id].forM requireAbsentChild

/-- The directories that `prepare_workspace` creates: the target first, then staging and trash,
each checked for its mount. -/
def createDirectories (id : WorkspaceId) (admission : Admission) :
    Handling (TargetDirectory × TargetDirectory × TargetDirectory) := do
  let root ← createChild euid admission.parent admission.leaf
  let staging ← createChild euid admission.parent (Application.stagingName id)
  let trash ← createChild euid admission.parent (Application.trashName id)
  [root, staging, trash].forM fun child =>
    requireBtrfsMount child admission.volumeId admission.mountId
  pure (root, staging, trash)

/-- The stem of the document that `prepare_workspace` stages. -/
def ownershipStem : String := "workspace-ownership"

/-- The ownership is written and published, in `prepare_workspace`. -/
def publishOwnership (ownership : WorkspaceOwnership) : Handling Unit := do
  let bytes ← liftExcept documentError (encodeWorkspaceOwnership toml ownership)
  let temporary ← callOr (.stageDocument ownershipStem bytes) fun e => e
  callOr (.publishDocument temporary (.ownership ownership.workspaceId)) fun error =>
    if error.kind = .conflict then
      .conflict "Workspace ownership proof already exists" .workspaceId
    else error

/-- `prepare_workspace`: the target is admitted and vacant, the directories are made, and their
ownership is registered. -/
def prepareWorkspace (layout : Layout) (id : WorkspaceId) (target : AbsolutePath) :
    Handling PreparedWorkspace := do
  let admission ← admitTarget layout id target
  requireVacant id admission.leaf
  let (root, staging, trash) ← createDirectories euid id admission
  let stagingRoot ← liftExcept (fun e => e) (absolute staging.path)
  let trashRoot ← liftExcept (fun e => e) (absolute trash.path)
  let ownership : WorkspaceOwnership := {
    instanceId := layout.instanceId
    workspaceId := id
    volumeId := admission.volumeId
    mountId := admission.mountId
    targetPath := target
    parent := admission.parent.identity
    target := root.identity
    staging := ⟨stagingRoot, staging.identity⟩
    trash := ⟨trashRoot, trash.identity⟩
    isolatedPath := none }
  publishOwnership toml ownership
  let prepared : PreparedWorkspace :=
    ⟨admission.parent, root, staging, trash, ownership, target, stagingRoot, trashRoot⟩
  prepared.revalidate euid toml
  callOr .layout fun e => e
  pure prepared

end Programs

/-! ### The guard

The names to stage under are none of the workspace's, and the guard lets a creation write
under these two kinds of names only. -/

/-- The name that a directory is staged under, in two parts. -/
theorem temporaryName_eq (uuid : UuidV7) :
    temporaryName uuid = asBytes ".thinws-dir.tmp-" ++ asBytes uuid.toText :=
  asBytes_append _ _

/-- A staging name is long enough not to be one of `.` and `..`. -/
theorem temporaryName_length (uuid : UuidV7) : 16 ≤ (temporaryName uuid).length := by
  have hlength : (asBytes ".thinws-dir.tmp-").length = 16 := by decide
  rw [temporaryName_eq, List.length_append, hlength]
  exact Nat.le_add_right 16 _

/-- A name that a directory is staged under is one component.  It has the bytes of the stem and of
an identifier, none of which is a separator or zero. -/
theorem normal_temporaryName (uuid : UuidV7) : AbsolutePath.Normal (temporaryName uuid) := by
  have hkind : slash ∉ asBytes ".thinws-dir.tmp-" ∧ (0 : UInt8) ∉ asBytes ".thinws-dir.tmp-" := by
    decide
  obtain ⟨hslash, hnul⟩ := Application.not_mem_toText ⟨uuid⟩
  rw [WorkspaceId.toText, asBytes_append, List.mem_append, not_or] at hslash hnul
  refine ⟨?_, ?_, ?_⟩
  · rw [temporaryName_eq, List.mem_append]
    exact not_or.mpr ⟨hkind.1, hslash.2⟩
  · rw [temporaryName_eq, List.mem_append]
    exact not_or.mpr ⟨hkind.2, hnul.2⟩
  · have hlong := temporaryName_length uuid
    simp only [isSpecialComponent, Bool.or_eq_false_iff, beq_eq_false_iff_ne]
    refine ⟨⟨?_, ?_⟩, ?_⟩
    all_goals
      intro he
      rw [he] at hlong
      simp only [List.length_nil, List.length_cons] at hlong
      omega

/-- The name of a staged directory, which is a proper file name. -/
def staged (uuid : UuidV7) : FileName := ⟨temporaryName uuid, normal_temporaryName uuid⟩

/-- No sibling of a target is named like a staged directory. -/
theorem temporaryName_not_mem (uuid : UuidV7) (id : WorkspaceId) :
    temporaryName uuid ∉ Application.siblingNames id := by
  intro h
  obtain ⟨kind, hkind, he⟩ := Application.mem_siblingNames.mp h
  have hdiffer : ∀ kind ∈ Application.siblingKinds,
      9 ≤ (asBytes kind).length ∧ (asBytes kind).take 9 ≠ (asBytes ".thinws-dir.tmp-").take 9 := by
    decide
  have htake := congrArg (List.take 9) ((temporaryName_eq uuid).symm.trans he)
  rw [List.take_append_of_le_length (by decide),
    List.take_append_of_le_length (hdiffer kind hkind).1] at htake
  exact (hdiffer kind hkind).2 htake.symm

section Guard

variable {κ : Type} (site : Site κ) (leaf : FileName) (id : WorkspaceId)

/-- The directories that the record describes are there. -/
structure Stood (w : World κ) (record : WorkspaceOwnership) : Prop where
  target : ∃ folder, w.folder? leaf.bytes = some folder ∧ folder.identity = record.target
  operation : ∀ kind : OperationKind, ∃ folder, w.folder? (kind.name id).bytes = some folder ∧
    folder.identity = (kind.evidence record).identity ∧ folder.isPrivate = true

/-- Where a creation that began in `start` may make each of its calls: while there is no
ownership, and on names that were new.  The ownership is published where what it describes is
there. -/
def gradual (toml : TomlLibrary) (start : World κ) : LifecycleCall → World κ → Prop
  | .mkdir name, w => w.documents (.ownership id) = none ∧ ∃ uuid, name = temporaryName uuid
  | .renameNoreplace source target, w => w.documents (.ownership id) = none ∧
      start.children source = none ∧ (∃ uuid, source = temporaryName uuid) ∧
        (target = leaf.bytes ∨ ∃ kind : OperationKind, target = (kind.name id).bytes)
  | .rmdir name, w => w.documents (.ownership id) = none ∧
      start.children name = none ∧ ∃ uuid, name = temporaryName uuid
  | .stageDocument stem _, w => w.documents (.ownership id) = none ∧ stem = ownershipStem
  | .publishDocument temporary name, w => name = .ownership id ∧
      start.documents temporary = none ∧ (∃ uuid, temporary = .staged ownershipStem uuid) ∧
        ∃ record bytes, w.documents temporary = some bytes ∧
          encodeWorkspaceOwnership toml record = .ok bytes ∧ Stood leaf id w record
  | _, _ => False

end Guard

/-! ### The rules

What a created directory is and what the creation of the next one needs.  Rounds that failed
may leave staged directories behind, which is all they leave. -/

section Rules

variable {κ : Type} {euid : UInt32} {toml : TomlLibrary} {site : Site κ} {leaf : FileName}
  {id : WorkspaceId} {start w : World κ} {calm : Bool}

/-- What is left of staging: new directories under new names, and none in a quiet world. -/
structure Littered (calm : Bool) (w w' : World κ) : Prop where
  documents : w'.documents = w.documents
  children : ∀ name, w'.children name = w.children name ∨
    (calm = false ∧ w.children name = none ∧ ∃ uuid, name = temporaryName uuid)

/-- Nothing at all is left of no staging. -/
theorem Littered.refl (w : World κ) : Littered calm w w := ⟨rfl, fun _ => .inl rfl⟩

/-- What is left of two stagings is new, as it is of one. -/
theorem Littered.trans {w' w'' : World κ} (h : Littered calm w w') (h' : Littered calm w' w'') :
    Littered calm w w'' where
  documents := h'.documents.trans h.documents
  children name := by
    rcases h'.children name with hsame | ⟨hcalm, hnone, htemporary⟩
    · rw [hsame]
      exact h.children name
    · rcases h.children name with hsame | hlittered
      · exact .inr ⟨hcalm, hsame ▸ hnone, htemporary⟩
      · exact .inr hlittered

/-- What is missing after a staging was missing before it. -/
theorem Littered.none_of_none {w' : World κ} (h : Littered calm w w') {name : List UInt8}
    (hnone : w'.children name = none) : w.children name = none := by
  rcases h.children name with hsame | ⟨-, hlittered, -⟩
  · rwa [hsame] at hnone
  · exact hlittered

/-- A staged directory that is left. -/
theorem littered_setChild {uuid : UuidV7} (hcalm : calm = false)
    (hnone : w.children (temporaryName uuid) = none) (child : Option (Child κ)) :
    Littered calm w (w.setChild (temporaryName uuid) child) where
  documents := rfl
  children name := by
    by_cases hname : name = temporaryName uuid
    · rw [hname]
      exact .inr ⟨hcalm, hnone, uuid, rfl⟩
    · exact .inl (World.children_setChild_of_ne w _ hname)

/-- A new directory: empty, private, and with an identity of its own. -/
def fresh (site : Site κ) (identity : HistoricalDirectoryIdentity) : Folder κ :=
  ⟨site.device, identity, true, site.empty⟩

/-- The directory has been created and is held, and nothing has changed but what is left of
staging. -/
structure Created (site : Site κ) (calm : Bool) (name : FileName) (w w' : World κ)
    (created : TargetDirectory) : Prop where
  path : created.path = (site.path name).asBytes
  device : created.device = site.device
  valid : created.identity.Valid
  changed : ∃ w₁, Littered calm w w₁ ∧ w₁.children name.bytes = none ∧
    w' = w₁.setChild name.bytes (some (.folder (fresh site created.identity)))

/-- The world is one from which a creation goes on: nothing has gone, and there is no
ownership. -/
structure Ongoing (id : WorkspaceId) (start w : World κ) : Prop where
  children : ∀ name, w.children name = none → start.children name = none
  documents : ∀ name, w.documents name = none → start.documents name = none
  undocumented : w.documents (.ownership id) = none

/-- What a directory needs to be created: its name is free, and so is some name to stage it
under. -/
structure Creatable (name : FileName) (w : World κ) : Prop where
  vacant : w.children name.bytes = none
  apart : ∀ uuid, name.bytes ≠ temporaryName uuid
  free : ∃ uuid, w.children (temporaryName uuid) = none

/-- Syncing the directory finds nothing and changes nothing. -/
theorem finds_syncDirectory : Finds euid site calm (fun _ => True) syncDirectory w :=
  (finds_callOr (c := .syncParent) trivial fun _ => ⟨(), w, rfl, trivial⟩).mono
    fun _ _ => trivial

/-- The check that a name is free finds it free; in a quiet world it passes where it is.  The one
answer that passes is that nothing is there. -/
theorem finds_requireAbsentChild {name : List UInt8}
    (hcalm : calm = true → w.children name = none) :
    Finds euid site calm (fun _ => w.children name = none) (requireAbsentChild name) w := by
  refine Program.safe_perform_bind.mpr ⟨trivial, fun r w' hstep => ?_⟩
  obtain rfl := step_reads euid site (c := .statat name) trivial hstep
  cases r with
  | ok stat =>
    obtain ⟨⟨-, child, hchild, -⟩, -⟩ := hstep
    refine finds_throw fun h => ?_
    rw [hcalm h] at hchild
    cases hchild
  | error e =>
    cases e with
    | noent => exact finds_pure hstep.1
    | exist | other =>
      refine finds_throw fun h => ?_
      have happarent := (hstep.2.2 h).2.2
      cases happarent

/-- What is discarded was new, so a failed creation may discard it. -/
theorem attains_cleanupStagedChild {uuid : UuidV7} {directory : TargetDirectory}
    (hnew : start.children (temporaryName uuid) = none)
    (hundocumented : w.documents (.ownership id) = none) :
    Attains euid site calm (gradual leaf id toml start) (fun _ _ => True)
      (cleanupStagedChild (temporaryName uuid) directory) w := by
  refine Program.safe_perform_bind.mpr ⟨.inl trivial, fun r w₁ hstep => ?_⟩
  obtain rfl := step_reads euid site (c := .statat (temporaryName uuid)) trivial hstep
  cases r with
  | error e => exact Program.achieves_pure trivial
  | ok stat =>
    dsimp only
    split
    · refine Program.safe_perform_bind.mpr ⟨.inr ⟨hundocumented, hnew, uuid, rfl⟩, fun _ w₂ _ => ?_⟩
      refine Program.safe_perform_bind.mpr ⟨.inl trivial, fun _ w₃ _ => ?_⟩
      exact Program.achieves_pure trivial
    · exact Program.achieves_pure trivial

/-- The world in which a directory is staged. -/
def staging (site : Site κ) (w : World κ) (uuid : UuidV7)
    (identity : HistoricalDirectoryIdentity) : World κ :=
  w.setChild (temporaryName uuid) (some (.folder (fresh site identity)))

/-- A staged directory that is renamed is as if it had been created in its place. -/
theorem staging_renamed {uuid : UuidV7} {identity : HistoricalDirectoryIdentity}
    (hnone : w.children (temporaryName uuid) = none) (name : List UInt8)
    (child : Option (Child κ)) :
    ((staging site w uuid identity).setChild (temporaryName uuid) none).setChild name child =
      w.setChild name child := by
  rw [staging, World.setChild_setChild, World.setChild_eq_self w hnone]

/-- The parent of the target is held: the handle leads to the directory of the site. -/
structure Held (site : Site κ) (parent : TargetDirectory) : Prop where
  path : parent.path = site.parent.asBytes
  identity : parent.identity = site.identity
  device : parent.device = site.device

/-- The held parent is the directory that its path leads to. -/
theorem Held.at {parent : TargetDirectory} (h : Held site parent) :
    site.At w site.parent parent.identity parent.device :=
  Site.at_parent.mpr ⟨h.identity, h.device⟩

/-- Publishing a staged directory moves it to its name and leaves the rest, once it is held as it
was created.  The rename replaces nothing and its target name was free; what is looked at
afterwards is the directory that was moved. -/
theorem attains_publishChild {parent directory : TargetDirectory} {name : FileName}
    {uuid : UuidV7} {identity : HistoricalDirectoryIdentity} (hheld : Held site parent)
    (hongoing : Ongoing id start w)
    (hname : name.bytes = leaf.bytes ∨ ∃ kind : OperationKind, name.bytes = (kind.name id).bytes)
    (hnone : w.children (temporaryName uuid) = none)
    (hidentity : directory.identity = identity) (hdevice : directory.device = site.device)
    (hcalm : calm = true → w.children name.bytes = none ∧ name.bytes ≠ temporaryName uuid) :
    Attains euid site calm (gradual leaf id toml start)
      (fun created w' => created = ⟨(site.path name).asBytes, identity, site.device⟩ ∧
        w.children name.bytes = none ∧
          w' = w.setChild name.bytes (some (.folder (fresh site identity))))
      (publishChild parent name.bytes (temporaryName uuid) directory)
      (staging site w uuid identity) := by
  have hnew := hongoing.children _ hnone
  have hstaged : (staging site w uuid identity).children (temporaryName uuid) =
      some (.folder (fresh site identity)) := World.children_setChild_self w _ _
  refine Program.safe_perform_bind.mpr
    ⟨.inr ⟨hongoing.undocumented, hnew, ⟨uuid, rfl⟩, hname⟩, fun r w₁ hstep => ?_⟩
  cases r with
  | error e =>
    have hstormy : calm = false := by
      refine Bool.eq_false_iff.mpr fun hc => (hstep.2.2 hc).2.1 ?_
      refine ⟨(), _, ⟨?_, .folder (fresh site identity), hstaged, rfl⟩, trivial⟩
      exact (World.children_setChild_of_ne w _ (hcalm hc).2).trans (hcalm hc).1
    have hundocumented : w₁.documents (.ownership id) = none := by
      obtain ⟨-, rfl | ⟨_, -, child, -, rfl⟩ | hpart, -⟩ := hstep
      · exact hongoing.undocumented
      · exact hongoing.undocumented
      · exact hpart.elim
    exact Achieves.bind (attains_cleanupStagedChild hnew hundocumented) fun _ _ _ =>
      Program.achieves_throw hstormy
  | ok _ =>
    obtain ⟨⟨hvacant, child, hchild, rfl⟩, -⟩ := hstep
    obtain rfl := Option.some.inj (hstaged.symm.trans hchild)
    have hdiffers : name.bytes ≠ temporaryName uuid := by
      intro he
      rw [he, hstaged] at hvacant
      cases hvacant
    have hfree : w.children name.bytes = none :=
      (World.children_setChild_of_ne w _ hdiffers).symm.trans hvacant
    rw [staging_renamed hnone]
    dsimp only
    rw [hheld.path, Linux.pathJoin_eq name.normal, hidentity, hdevice]
    have hnamed := World.folder?_of_children _ (World.children_setChild_self w name.bytes
      (some (.folder (fresh site identity))))
    refine Finds.andThen finds_syncDirectory fun _ _ => ?_
    refine Finds.andThen (finds_revalidate (show _ = (site.path name).asBytes from rfl)
      fun _ => Site.At.child hnamed) fun _ _ => ?_
    refine Finds.andThen (finds_revalidate hheld.path fun _ => hheld.at) fun _ _ => ?_
    exact Program.achieves_pure ⟨rfl, hfree, rfl⟩

/-- One attempt to create a directory does, or leaves no more than a staged one; in a quiet world
it does where the name is free. -/
theorem attains_createOnce {parent : TargetDirectory} {name : FileName} (hheld : Held site parent)
    (hongoing : Ongoing id start w)
    (hname : name.bytes = leaf.bytes ∨ ∃ kind : OperationKind, name.bytes = (kind.name id).bytes)
    (hcalm : calm = true → Creatable name w) :
    Attains euid site calm (gradual leaf id toml start)
      (fun found w' => (found = none ∧ calm = false ∧ Littered calm w w') ∨
        ∃ created, found = some created ∧ Created site calm name w w' created)
      (createOnce euid parent name.bytes) w := by
  refine Finds.andThen (finds_callOr trivial fun h => ?_) fun uuid huuid => ?_
  · obtain ⟨free, hfree⟩ := (hcalm h).free
    exact ⟨free, w, rfl, fun _ _ => hfree⟩
  have hunused : calm = true → w.children (temporaryName uuid) = none := by
    intro h
    obtain ⟨free, hfree⟩ := (hcalm h).free
    exact huuid.2 h free hfree
  refine Program.safe_perform_bind.mpr
    ⟨.inr ⟨hongoing.undocumented, uuid, rfl⟩, fun r w₁ hstep => ?_⟩
  cases r with
  | error e =>
    have hstormy : calm = false := by
      refine Bool.eq_false_iff.mpr fun hc => (hstep.2.2 hc).2.1 ?_
      exact ⟨(), _, ⟨hunused hc, ⟨1, 1, 0⟩, ⟨by decide, by decide, by decide⟩, rfl⟩, trivial⟩
    have hlittered : Littered calm w w₁ := by
      obtain ⟨-, rfl | ⟨_, hnone, identity, -, rfl⟩ | hpart, -⟩ := hstep
      · exact .refl _
      · exact littered_setChild hstormy hnone _
      · exact hpart.elim
    cases e with
    | exist => exact Program.achieves_pure (.inl ⟨rfl, hstormy, hlittered⟩)
    | noent | other => exact Program.achieves_throw hstormy
  | ok _ =>
    obtain ⟨⟨hnone, identity, hvalid, rfl⟩, -⟩ := hstep
    change Attains euid site calm _ _ _ (staging site w uuid identity)
    have hnamed : (staging site w uuid identity).folder? (staged uuid).bytes =
        some (fresh site identity) :=
      World.folder?_of_children _ (World.children_setChild_self w _ _)
    refine Finds.andThen finds_syncDirectory fun _ _ => ?_
    rw [hheld.path, show pathJoin site.parent.asBytes (temporaryName uuid) =
      (site.path (staged uuid)).asBytes from Linux.pathJoin_eq (staged uuid).normal]
    refine Finds.andThen (finds_openTargetDirectory fun _ => ⟨_, _, .child hnamed⟩)
      fun directory hopened => ?_
    obtain ⟨hpath, hat⟩ := hopened
    obtain ⟨folder, hfolder, hidentity, hdevice⟩ := Site.at_path.mp hat
    obtain rfl := Option.some.inj (hnamed.symm.trans hfolder)
    refine Finds.andThen (finds_requirePrivate ⟨hpath, hnamed, hidentity, hdevice⟩ fun _ => rfl)
      fun _ _ => ?_
    refine Finds.andThen (finds_revalidate hheld.path fun _ => hheld.at) fun _ _ => ?_
    refine Achieves.bind (attains_publishChild hheld hongoing hname hnone hidentity.symm
      hdevice.symm fun h => ⟨(hcalm h).vacant, (hcalm h).apart uuid⟩) fun created w₂ hcreated => ?_
    obtain ⟨rfl, hvacant, rfl⟩ := hcreated
    exact Program.achieves_pure (.inr ⟨_, rfl, rfl, rfl, hvalid, w, .refl w, hvacant, rfl⟩)

/-- A creation goes on from what a failed attempt has left. -/
theorem Littered.ongoing {w' : World κ} (h : Littered calm w w') (hongoing : Ongoing id start w) :
    Ongoing id start w' where
  children name hnone := hongoing.children name (h.none_of_none hnone)
  documents name hnone := hongoing.documents name (by rwa [h.documents] at hnone)
  undocumented := by rw [h.documents, hongoing.undocumented]

/-- Several attempts create the directory: an induction on their number.  A round that finds its
staging name taken goes on to the next one, and leaves the world as it was. -/
theorem attains_createRounds {parent : TargetDirectory} {name : FileName}
    (hheld : Held site parent)
    (hname : name.bytes = leaf.bytes ∨ ∃ kind : OperationKind, name.bytes = (kind.name id).bytes)
    (rounds : ℕ) (hongoing : Ongoing id start w)
    (hcalm : calm = true → rounds ≠ 0 ∧ Creatable name w) :
    Attains euid site calm (gradual leaf id toml start)
      (fun created w' => Created site calm name w w' created)
      (createRounds euid parent name.bytes rounds) w := by
  induction rounds generalizing w with
  | zero => exact Program.achieves_throw (Bool.eq_false_iff.mpr fun h => (hcalm h).1 rfl)
  | succ rounds ih =>
    refine Achieves.bind (attains_createOnce hheld hongoing hname fun h => (hcalm h).2)
      fun found w₁ hfound => ?_
    obtain ⟨rfl, hstormy, hlittered⟩ | ⟨created, rfl, hcreated⟩ := hfound
    · refine (ih (hlittered.ongoing hongoing) fun h => ?_).mono fun created w₂ hcreated => ?_
      · rw [hstormy] at h
        cases h
      · obtain ⟨w₃, hlittered₃, hrest⟩ := hcreated.changed
        exact ⟨hcreated.path, hcreated.device, hcreated.valid, w₃, hlittered.trans hlittered₃,
          hrest⟩
    · exact Program.achieves_pure hcreated

/-- **A directory is created in its place**, or not at all. -/
theorem attains_createChild {parent : TargetDirectory} {name : FileName}
    (hheld : Held site parent) (hongoing : Ongoing id start w)
    (hname : name.bytes = leaf.bytes ∨ ∃ kind : OperationKind, name.bytes = (kind.name id).bytes)
    (hcalm : calm = true → Creatable name w) :
    Attains euid site calm (gradual leaf id toml start)
      (fun created w' => Created site calm name w w' created)
      (createChild euid parent name.bytes) w := by
  refine Finds.andThen (finds_revalidate hheld.path fun _ => hheld.at) fun _ _ => ?_
  refine Finds.andThen (finds_requireAbsentChild fun h => (hcalm h).vacant) fun _ _ => ?_
  exact attains_createRounds hheld hname 32 hongoing fun h => ⟨by decide, hcalm h⟩

end Rules

end Lifecycle
end ThinWorkspace
