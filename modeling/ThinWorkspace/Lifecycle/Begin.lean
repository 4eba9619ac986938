/-
# A workspace begins

Source: `prepare_workspace` and `LinuxPreparedWorkspace::revalidate` in
`crates/thinws-adapter-linux/src/workspace.rs`.

The rules of `Locate` are applied along the definition of `prepareWorkspace`: one for each
part, and `safe_prepareWorkspace` for the whole.  From it follow two things of every world:
a creation only adds (`prepareWorkspace_extends`), whatever fails and wherever it stops, and
an ownership appears only when all that it describes is there.
-/

import ThinWorkspace.Lifecycle.Prepare
import ThinWorkspace.Lifecycle.Resume

namespace ThinWorkspace
namespace Lifecycle

open ThinWorkspace.Core Lib Ports
open Linux (WorkspaceOwnership HistoricalDirectoryIdentity encodeWorkspaceOwnership
  decodeWorkspaceOwnership documentError containsPath pathParent)
open Program (Achieves Issues Returns Safe Visits)

variable {κ : Type} {euid : UInt32} {toml : TomlLibrary} {site : Site κ} {leaf : FileName}
  {id : WorkspaceId} {layout : Layout} {start w : World κ} {calm : Bool}

/-! ### Rules

The rules behind which a creation begins: a part that only reads may fail where calls fail,
and in a quiet world fails only where something is in the way.  What is found of the target
and its parent is collected in `Admitted`. -/

/-- A part that only fails where calls fail, and a rest with any postcondition. -/
theorem Attains.thenSafe {α β : Type} {G : LifecycleCall → World κ → Prop}
    {P : α → World κ → Prop} {post : Except PortError β → World κ → Prop} {x : Handling α}
    {f : α → Handling β} (hx : Attains euid site calm G P x w)
    (hf : ∀ a w', P a w' →
      Safe (environment euid site calm) (fun c s => c.Reads ∨ G c s) post (f a) w')
    (herror : ∀ e w', calm = false → post (.error e) w') :
    Safe (environment euid site calm) (fun c s => c.Reads ∨ G c s) post (x >>= f) w :=
  Safe.bind hx hf herror

/-- A loop of parts that each find something about their element finds it about every element. -/
theorem finds_forM {α : Type} {P : α → Prop} {f : α → Handling Unit} {as : List α}
    (h : ∀ a ∈ as, Finds euid site calm (fun _ => P a) (f a) w) :
    Finds euid site calm (fun _ => ∀ a ∈ as, P a) (as.forM f) w := by
  induction as with
  | nil => exact finds_pure (fun a ha => nomatch ha)
  | cons a as ih =>
    refine Finds.bind (h a List.mem_cons_self) fun _ ha => ?_
    refine (ih fun b hb => h b (List.mem_cons_of_mem a hb)).mono fun _ hrest b hb => ?_
    rcases List.mem_cons.mp hb with rfl | hb
    · exact ha
    · exact hrest b hb

/-- The target may be created where it is: apart from the control root, in a directory that can
be written, and not under a reserved name. -/
structure Admissible (site : Site κ) (leaf : FileName) (id : WorkspaceId) (layout : Layout) :
    Prop where
  unreserved : Unreserved leaf id
  above : containsPath (site.path leaf).asBytes layout.dataRoot.asBytes = false
  below : containsPath layout.dataRoot.asBytes (site.path leaf).asBytes = false
  ancestors : layout.dataRootIdentity ∉ site.ancestors
  parent : layout.dataRootIdentity ≠ ⟨site.device, site.identity.inode⟩
  writable : site.writability = .supported

/-- What has been found of the target and its parent. -/
structure Admitted (site : Site κ) (leaf : FileName) (id : WorkspaceId) (layout : Layout)
    (calm : Bool) (admission : Admission) : Prop where
  held : Held site admission.parent
  name : admission.leaf = leaf.bytes
  unreserved : Unreserved leaf id
  above : containsPath (site.path leaf).asBytes layout.dataRoot.asBytes = false
  below : containsPath layout.dataRoot.asBytes (site.path leaf).asBytes = false
  mounted : calm = true →
    admission.volumeId = site.volumeId ∧ admission.mountId = site.mountId

/-- `admit_target` finds what it needs of the target and its parent; in a quiet world it succeeds
for an admissible target.  The checks are followed in the order of the source: the layout and its
lock, the parent, the report on it, the separation from the control root, the Btrfs volume, whether
it can be written, and last the names that are reserved. -/
theorem finds_admitTarget (hcalm : calm = true → Admissible site leaf id layout) :
    Finds euid site calm (Admitted site leaf id layout calm)
      (admitTarget layout id (site.path leaf)) w := by
  have hparent : pathParent (site.path leaf) = some site.parent.asBytes := by
    rw [Linux.pathParent_eq (site.path_ne_root leaf)]
    exact congrArg (some ∘ AbsolutePath.asBytes) (site.parent_path leaf)
  unfold admitTarget
  rw [hparent]
  refine Finds.bind (finds_callOr trivial fun _ => ⟨(), w, rfl, trivial⟩) fun _ _ => ?_
  refine Finds.bind (finds_callOr trivial fun _ => ⟨(), w, rfl, trivial⟩) fun _ _ => ?_
  refine Finds.bind (finds_orMissing fun _ => Option.some_ne_none _) fun parentPath hpath => ?_
  obtain rfl := Option.some.inj hpath
  refine Finds.bind finds_fileName fun found hfound => ?_
  subst hfound
  refine Finds.bind (finds_openTargetDirectory fun _ => ⟨_, _, .parent⟩) fun parent hopened => ?_
  obtain ⟨hidentity, hdevice⟩ := Site.at_parent.mp hopened.2
  have hheld : Held site parent := ⟨hopened.1, hidentity, hdevice⟩
  refine Finds.bind (finds_liftExcept fun _ => ⟨_, Linux.absolute_asBytes _⟩)
    fun inspected hinspected => ?_
  rw [Linux.absolute_asBytes] at hinspected
  obtain rfl := Except.ok.inj hinspected
  refine Finds.bind (finds_callOr trivial fun _ => possible_inspectPath hopened.2)
    fun report hreport => ?_
  have hdescribes : calm = true → site.Describes report parent.identity parent.device := by
    intro h
    obtain ⟨identity, device, hat, hreport'⟩ := hreport.2 h
    obtain ⟨rfl, rfl⟩ := hopened.2.unique hat
    exact hreport'
  refine Finds.bind (finds_ensure fun h =>
    ⟨(hdescribes h).resolution, (hdescribes h).last_ancestry⟩) fun _ _ => ?_
  refine Finds.bind (finds_ensure fun h => ?_) fun _ hapart => ?_
  · rintro (⟨entry, hentry, hroot⟩ | habove | hbelow)
    · rcases (hdescribes h).ancestry entry hentry with hmem | hself
      · exact (hcalm h).ancestors (hroot ▸ hmem)
      · rw [hself, hdevice, hidentity] at hroot
        exact (hcalm h).parent hroot.symm
    · rw [(hcalm h).above] at habove
      cases habove
    · rw [(hcalm h).below] at hbelow
      cases hbelow
  refine Finds.bind (finds_liftExcept fun h => ⟨_, (hdescribes h).btrfsIdentity⟩)
    fun identity hfound => ?_
  refine Finds.bind (finds_ensure fun h => (hdescribes h).writability.trans (hcalm h).writable)
    fun _ _ => ?_
  refine Finds.bind (finds_ensure fun h => ?_) fun _ hreserved => finds_pure ?_
  · rw [List.contains_eq_mem, decide_eq_false_iff_not]
    exact (hcalm h).unreserved
  · rw [List.contains_eq_mem, decide_eq_false_iff_not] at hreserved
    refine ⟨hheld, rfl, hreserved, ?_, ?_, fun h => ?_⟩
    · exact Bool.eq_false_iff.mpr fun habove => hapart (.inr (.inl habove))
    · exact Bool.eq_false_iff.mpr fun hbelow => hapart (.inr (.inr hbelow))
    · rw [(hdescribes h).btrfsIdentity] at hfound
      obtain rfl := Except.ok.inj hfound
      exact ⟨rfl, rfl⟩

/-- Nothing is there yet: no ownership document, no target and neither operation directory. -/
structure Vacant (leaf : FileName) (id : WorkspaceId) (w : World κ) : Prop where
  undocumented : w.documents (.ownership id) = none
  target : w.children leaf.bytes = none
  operation : ∀ kind : OperationKind, w.children (kind.name id).bytes = none

/-- The check that nothing is there yet finds exactly that.  The document is looked up first and
then the three names; each answer that something is there ends in an error, which a quiet world
with a vacant target does not give. -/
theorem finds_requireVacant (hcalm : calm = true → Vacant leaf id w) :
    Finds euid site calm (fun _ => Vacant leaf id w) (requireVacant id leaf.bytes) w := by
  refine Finds.bind (finds_callOr trivial fun _ => ⟨true, w, rfl, rfl⟩) fun same hsame => ?_
  refine Finds.bind (finds_ensure hsame.2) fun _ _ => ?_
  refine Finds.bind (finds_callOr trivial fun _ => ⟨_, w, ⟨rfl, rfl⟩, trivial⟩)
    fun found hfound => ?_
  have hread : found.isNone = true ↔ w.documents (.ownership id) = none := by
    rw [hfound.1.2, Option.isNone_iff_eq_none, Option.map_eq_none_iff]
  refine Finds.bind (finds_ensure fun h => hread.mpr (hcalm h).undocumented) fun _ hnone => ?_
  refine (finds_forM (P := fun name => w.children name = none) fun name hname =>
    finds_requireAbsentChild fun h => ?_).mono fun _ habsent => ⟨hread.mp hnone, ?_, fun kind => ?_⟩
  · simp only [List.mem_cons, List.not_mem_nil, or_false] at hname
    obtain rfl | rfl | rfl := hname
    · exact (hcalm h).target
    · exact (hcalm h).operation .staging
    · exact (hcalm h).operation .trash
  · exact habsent _ List.mem_cons_self
  · cases kind
    · exact habsent _ (List.mem_cons_of_mem _ List.mem_cons_self)
    · exact habsent _ (List.mem_cons_of_mem _ (List.mem_cons_of_mem _ List.mem_cons_self))

/-! ### The directories

The three directories are created one after the other, and each stands at its name, fresh
and empty, while the next is created.  A directory is staged first, so its name is either
missing or complete. -/

/-- What is where a directory is created is there afterwards. -/
theorem Created.holds {name : FileName} {w' : World κ} {created : TargetDirectory}
    (h : Created site calm name w w' created) :
    w'.folder? name.bytes = some (fresh site created.identity) := by
  obtain ⟨w₁, -, -, rfl⟩ := h.changed
  exact World.folder?_of_children _ (World.children_setChild_self w₁ _ _)

/-- A directory that was created stands at its name for as long as that entry is kept, fresh and
empty. -/
theorem Created.stands {name : FileName} {w' w'' : World κ} {created : TargetDirectory}
    (h : Created site calm name w w' created)
    (hkept : w''.folder? name.bytes = w'.folder? name.bytes) :
    site.Stands w'' created name (fresh site created.identity) :=
  ⟨h.path, hkept.trans h.holds, rfl, h.device.symm⟩

/-- Creating a directory changes no document. -/
theorem Created.documents {name : FileName} {w' : World κ} {created : TargetDirectory}
    (h : Created site calm name w w' created) : w'.documents = w.documents := by
  obtain ⟨w₁, hlittered, -, rfl⟩ := h.changed
  exact hlittered.documents

/-- What was there before a directory was created stays, since its name and its staging name were
free.  Littering may only add under staging names that were free, and the new directory goes under
a name that was free. -/
theorem Created.keeps {name : FileName} {w' : World κ} {created : TargetDirectory}
    (h : Created site calm name w w' created) {other : List UInt8} {child : Child κ}
    (hchild : w.children other = some child) : w'.children other = some child := by
  obtain ⟨w₁, hlittered, hvacant, rfl⟩ := h.changed
  have hsame : w₁.children other = some child := by
    rcases hlittered.children other with hsame | ⟨-, hnone, -⟩
    · exact hsame.trans hchild
    · rw [hnone] at hchild
      cases hchild
  refine (World.children_setChild_of_ne w₁ _ ?_).trans hsame
  rintro rfl
  rw [hvacant] at hsame
  cases hsame

/-- The same of a directory that was there. -/
theorem Created.keeps_folder {name : FileName} {w' : World κ} {created : TargetDirectory}
    (h : Created site calm name w w' created) {other : List UInt8} {folder : Folder κ}
    (hfolder : w.folder? other = some folder) : w'.folder? other = some folder :=
  World.folder?_of_children w' (h.keeps (World.children_of_folder? w hfolder))

/-- What has another name and is not staged is as it was. -/
theorem Created.others {name : FileName} {w' : World κ} {created : TargetDirectory}
    (h : Created site calm name w w' created) {other : List UInt8} (hname : other ≠ name.bytes)
    (hstaged : ∀ uuid, other ≠ temporaryName uuid) :
    w'.children other = w.children other := by
  obtain ⟨w₁, hlittered, -, rfl⟩ := h.changed
  refine (World.children_setChild_of_ne w₁ _ hname).trans ?_
  rcases hlittered.children other with hsame | ⟨-, -, uuid, huuid⟩
  · exact hsame
  · exact absurd huuid (hstaged uuid)

/-- In a quiet world nothing is left of staging.  Littering needs a world that is not quiet, so the
world before the new directory is the one at the start. -/
theorem Created.exact {name : FileName} {w' : World κ} {created : TargetDirectory}
    (h : Created site true name w w' created) :
    w' = w.setChild name.bytes (some (.folder (fresh site created.identity))) := by
  obtain ⟨w₁, hlittered, -, rfl⟩ := h.changed
  have hsame : w₁ = w := by
    obtain ⟨children, documents⟩ := w
    obtain ⟨children₁, documents₁⟩ := w₁
    obtain rfl : documents₁ = documents := hlittered.documents
    obtain rfl : children₁ = children := by
      funext other
      rcases hlittered.children other with hsame | ⟨hstormy, -⟩
      · exact hsame
      · cases hstormy
    rfl
  rw [hsame]

/-- A creation goes on behind each directory it has created. -/
theorem Created.ongoing {name : FileName} {w' : World κ} {created : TargetDirectory}
    (h : Created site calm name w w' created) (hongoing : Ongoing id start w) :
    Ongoing id start w' where
  children other hnone := hongoing.children other (by
    cases hchild : w.children other with
    | none => rfl
    | some child =>
      rw [h.keeps hchild] at hnone
      cases hnone)
  documents other hnone := hongoing.documents other (by rwa [h.documents] at hnone)
  undocumented := by rw [h.documents, hongoing.undocumented]

/-- The next directory can be created where it could before.  Its name is another one, and the
staging name that was free is no operation name and stays free. -/
theorem Created.creatable {name other : FileName} {w' : World κ} {created : TargetDirectory}
    (h : Created site true name w w' created) (hne : other.bytes ≠ name.bytes)
    (hname : ∀ uuid, name.bytes ≠ temporaryName uuid) (hother : Creatable other w) :
    Creatable other w' where
  vacant := by
    rw [h.exact, World.children_setChild_of_ne w _ hne]
    exact hother.vacant
  apart := hother.apart
  free := by
    obtain ⟨uuid, hfree⟩ := hother.free
    refine ⟨uuid, ?_⟩
    rw [h.exact, World.children_setChild_of_ne w _ (hname uuid).symm]
    exact hfree

/-- The three directories have been created, one after the other. -/
structure Erected (site : Site κ) (leaf : FileName) (id : WorkspaceId) (calm : Bool)
    (w w' : World κ) (root staging trash : TargetDirectory) : Prop where
  created : ∃ w₁ w₂, Created site calm leaf w w₁ root ∧
    Created site calm (OperationKind.name id .staging) w₁ w₂ staging ∧
    Created site calm (OperationKind.name id .trash) w₂ w' trash

section Erected

variable {w' : World κ} {root staging trash : TargetDirectory}

/-- The three directories stand at their names, each fresh and empty. -/
theorem Erected.stands (h : Erected site leaf id calm w w' root staging trash) :
    site.Stands w' root leaf (fresh site root.identity) ∧
      site.Stands w' staging (OperationKind.name id .staging) (fresh site staging.identity) ∧
      site.Stands w' trash (OperationKind.name id .trash) (fresh site trash.identity) := by
  obtain ⟨w₁, w₂, hroot, hstaging, htrash⟩ := h.created
  refine ⟨hroot.stands ?_, hstaging.stands ?_, htrash.stands rfl⟩
  · rw [hroot.holds, htrash.keeps_folder (hstaging.keeps_folder hroot.holds)]
  · rw [hstaging.holds, htrash.keeps_folder hstaging.holds]

/-- Creating the directories changes no document. -/
theorem Erected.documents (h : Erected site leaf id calm w w' root staging trash) :
    w'.documents = w.documents := by
  obtain ⟨w₁, w₂, hroot, hstaging, htrash⟩ := h.created
  rw [htrash.documents, hstaging.documents, hroot.documents]

/-- A creation goes on behind its three directories. -/
theorem Erected.ongoing (h : Erected site leaf id calm w w' root staging trash)
    (hongoing : Ongoing id start w) : Ongoing id start w' := by
  obtain ⟨w₁, w₂, hroot, hstaging, htrash⟩ := h.created
  exact htrash.ongoing (hstaging.ongoing (hroot.ongoing hongoing))

end Erected

/-- In a quiet world, all that the directories need to be created. -/
structure Plottable (leaf : FileName) (id : WorkspaceId) (w : World κ) : Prop where
  unreserved : Unreserved leaf id
  vacant : Vacant leaf id w
  apart : ∀ uuid, leaf.bytes ≠ temporaryName uuid
  free : ∃ uuid, w.children (temporaryName uuid) = none

/-- Where all three directories can be created, the target can. -/
theorem Plottable.creatable (h : Plottable leaf id w) : Creatable leaf w :=
  ⟨h.vacant.target, h.apart, h.free⟩

/-- Where all three directories can be created, either operation directory can. -/
theorem Plottable.operation (h : Plottable leaf id w) (kind : OperationKind) :
    Creatable (kind.name id) w where
  vacant := h.vacant.operation kind
  apart uuid he := temporaryName_not_mem uuid id (he ▸ kind.name_mem id)
  free := h.free

/-- `create_directories` erects the three directories; in a quiet world where their names are free
it succeeds.  The three creations follow each other, and each is judged from the world the one
before has left; in a quiet world the next name is still free by `Created.creatable`. -/
theorem attains_createDirectories {admission : Admission}
    (hadmitted : Admitted site leaf id layout calm admission) (hongoing : Ongoing id start w)
    (hcalm : calm = true → Plottable leaf id w) :
    Attains euid site calm (gradual leaf id toml start)
      (fun created w' => Erected site leaf id calm w w' created.1 created.2.1 created.2.2)
      (createDirectories euid id admission) w := by
  have hheld := hadmitted.held
  unfold createDirectories
  rw [hadmitted.name]
  refine Achieves.bind (attains_createChild hheld hongoing (.inl rfl)
    fun h => (hcalm h).creatable) fun root w₁ hroot => ?_
  have hongoing₁ := hroot.ongoing hongoing
  have hnext : calm = true → ∀ kind : OperationKind, Creatable (kind.name id) w₁ := by
    intro h kind
    subst h
    exact hroot.creatable (fun he => (hcalm rfl).unreserved (he ▸ kind.name_mem id))
      (hcalm rfl).apart ((hcalm rfl).operation kind)
  refine Achieves.bind (attains_createChild hheld hongoing₁
    (.inr ⟨.staging, rfl⟩) fun h => hnext h .staging)
    fun staging w₂ hstaging => ?_
  have hongoing₂ := hstaging.ongoing hongoing₁
  refine Achieves.bind (attains_createChild hheld hongoing₂
    (.inr ⟨.trash, rfl⟩) fun h => ?_) fun trash w₃ htrash => ?_
  · subst h
    refine hstaging.creatable (name_staging_ne_trash id) (fun uuid he => ?_) (hnext rfl .trash)
    exact temporaryName_not_mem uuid id (he ▸ OperationKind.staging.name_mem id)
  have herected : Erected site leaf id calm w w₃ root staging trash :=
    ⟨w₁, w₂, hroot, hstaging, htrash⟩
  obtain ⟨hstands, hstands', hstands''⟩ := herected.stands
  refine Finds.andThen (finds_forM (P := fun _ => True) fun child hchild => ?_) fun _ _ =>
    Program.achieves_pure herected
  simp only [List.mem_cons, List.not_mem_nil, or_false] at hchild
  obtain rfl | rfl | rfl := hchild
  · exact (finds_requireBtrfsMount hstands.path fun h =>
      ⟨hstands.at, hadmitted.mounted h⟩).mono fun _ _ => trivial
  · exact (finds_requireBtrfsMount hstands'.path fun h =>
      ⟨hstands'.at, hadmitted.mounted h⟩).mono fun _ _ => trivial
  · exact (finds_requireBtrfsMount hstands''.path fun h =>
      ⟨hstands''.at, hadmitted.mounted h⟩).mono fun _ _ => trivial

/-! ### The ownership

The ownership describes the directories that stand, with the identities they were created
with.  It is published by a rename, and then held together with them. -/

/-- Publishing the ownership sets its document and nothing else, once the directories it describes
stand.  The document is staged and then published under its name, which was free; the staged name
is free again afterwards. -/
theorem attains_publishOwnership {record : WorkspaceOwnership} (hongoing : Ongoing id start w)
    (hid : record.workspaceId = id) (hstood : Stood leaf id w record) {bytes : List UInt8}
    (hencoded : encodeWorkspaceOwnership toml record = .ok bytes)
    (hcalm : calm = true → ∃ uuid, w.documents (.staged ownershipStem uuid) = none) :
    Attains euid site calm (gradual leaf id toml start)
      (fun _ w' => w' = w.setDocument (.ownership id) (some bytes))
      (publishOwnership toml record) w := by
  unfold publishOwnership
  rw [hencoded, hid]
  refine Finds.andThen (finds_liftExcept fun _ => ⟨bytes, rfl⟩) fun found hfound => ?_
  obtain rfl := Except.ok.inj hfound
  refine Achieves.bind (attains_callOr (P := fun name w' => (∃ uuid,
      name = DocumentName.staged ownershipStem uuid) ∧ w.documents name = none ∧
      w' = w.setDocument name (some bytes)) (.inr ⟨hongoing.undocumented, rfl⟩) (fun h => ?_)
      fun name w' heffect => ?_) fun temporary w₁ hstaged => ?_
  · obtain ⟨uuid, hfree⟩ := hcalm h
    exact ⟨.staged ownershipStem uuid, _, ⟨uuid, rfl, hfree, rfl⟩, trivial⟩
  · obtain ⟨uuid, hname, hfree, hw'⟩ := heffect
    exact ⟨⟨uuid, hname⟩, hfree, hw'⟩
  obtain ⟨htemporary, hfree, rfl⟩ := hstaged
  have hother : DocumentName.ownership id ≠ temporary := by
    obtain ⟨uuid, rfl⟩ := htemporary
    exact nofun
  have hstored := World.documents_setDocument_self w temporary (some bytes)
  have hvacant : (w.setDocument temporary (some bytes)).documents (.ownership id) = none :=
    (World.documents_setDocument_of_ne w _ hother).trans hongoing.undocumented
  have hstood' : Stood leaf id (w.setDocument temporary (some bytes)) record :=
    ⟨hstood.target, hstood.operation⟩
  refine attains_callOr
    (.inr ⟨rfl, hongoing.documents _ hfree, htemporary, record, bytes, hstored, hencoded, hstood'⟩)
    (fun _ => ⟨(), _, ⟨hvacant, bytes, hstored, rfl⟩, trivial⟩) fun _ w' heffect => ?_
  obtain ⟨-, bytes', hbytes', rfl⟩ := heffect
  obtain rfl := Option.some.inj (hstored.symm.trans hbytes')
  rw [World.setDocument_setDocument, World.setDocument_eq_self w hfree]

/-- The ownership that is written of the directories, with the identities they were created with
and no isolated path. -/
def ownershipOf (site : Site κ) (leaf : FileName) (id : WorkspaceId) (layout : Layout)
    (volumeId : VolumeId) (mountId : UInt64)
    (target staging trash : HistoricalDirectoryIdentity) : WorkspaceOwnership where
  instanceId := layout.instanceId
  workspaceId := id
  volumeId := volumeId
  mountId := mountId
  targetPath := site.path leaf
  parent := site.identity
  target := target
  staging := ⟨site.path (OperationKind.name id .staging), staging⟩
  trash := ⟨site.path (OperationKind.name id .trash), trash⟩
  isolatedPath := none

/-- What is held of a prepared workspace is what its ownership says. -/
structure Consistent (site : Site κ) (leaf : FileName) (id : WorkspaceId) (layout : Layout)
    (calm : Bool) (w : World κ) (prepared : PreparedWorkspace) : Prop where
  held : Held site prepared.parent
  root : site.Stands w prepared.root leaf (fresh site prepared.root.identity)
  staging : site.Stands w prepared.staging (OperationKind.name id .staging)
    (fresh site prepared.staging.identity)
  trash : site.Stands w prepared.trash (OperationKind.name id .trash)
    (fresh site prepared.trash.identity)
  ownership : ∃ volumeId mountId, prepared.ownership = ownershipOf site leaf id layout volumeId
    mountId prepared.root.identity prepared.staging.identity prepared.trash.identity ∧
    (calm = true → volumeId = site.volumeId ∧ mountId = site.mountId)
  targetRoot : prepared.targetRoot = site.path leaf
  stagingRoot : prepared.stagingRoot = site.path (OperationKind.name id .staging)
  trashRoot : prepared.trashRoot = site.path (OperationKind.name id .trash)

/-- The directories that the ownership of a consistent workspace describes are there. -/
theorem Consistent.stood {prepared : PreparedWorkspace}
    (h : Consistent site leaf id layout calm w prepared) : Stood leaf id w prepared.ownership := by
  obtain ⟨volumeId, mountId, hownership, -⟩ := h.ownership
  rw [hownership]
  refine ⟨⟨_, h.root.named, rfl⟩, fun kind => ?_⟩
  cases kind
  · exact ⟨_, h.staging.named, rfl, rfl⟩
  · exact ⟨_, h.trash.named, rfl, rfl⟩

/-- A child of a consistent workspace passes its revalidation while it stands.  The child stands
where it did, so its identity and its parent are those that were recorded, and the mount is the one
of the ownership. -/
theorem finds_revalidateChild {prepared : PreparedWorkspace} {child : TargetDirectory}
    {name : FileName} {folder : Folder κ}
    (h : Consistent site leaf id layout calm w prepared)
    (hstands : site.Stands w child name folder) :
    Finds euid site calm (fun _ => True) (prepared.revalidateChild child) w := by
  obtain ⟨volumeId, mountId, hownership, hmounted⟩ := h.ownership
  unfold PreparedWorkspace.revalidateChild
  rw [hstands.path, hownership]
  refine Finds.bind (finds_revalidate hstands.path fun _ => hstands.at) fun _ _ => ?_
  refine Finds.bind (finds_liftExcept fun _ => ⟨_, Linux.absolute_asBytes _⟩) fun path hpath => ?_
  rw [Linux.absolute_asBytes] at hpath
  obtain rfl := Except.ok.inj hpath
  refine Finds.bind (finds_ensure fun _ => ?_) fun _ _ => ?_
  · rw [Linux.pathParent_eq (site.path_ne_root name), site.parent_path, h.held.path]
  · exact (finds_requireBtrfsMount hstands.path fun hc =>
      ⟨hstands.at, hmounted hc⟩).mono fun _ _ => trivial

/-- `LinuxPreparedWorkspace::revalidate` finds the ownership documented as it is held; in a quiet
world it passes where it is.  The parent comes first, then the three children, their privacy, the
mount, what the record says of them, and last the document. -/
theorem finds_revalidatePrepared {prepared : PreparedWorkspace}
    (h : Consistent site leaf id layout calm w prepared)
    (hcalm : calm = true → Documented toml w id prepared.ownership) :
    Finds euid site calm (fun _ => Documented toml w id prepared.ownership)
      (prepared.revalidate euid toml) w := by
  obtain ⟨volumeId, mountId, hownership, hmounted⟩ := h.ownership
  have hid : prepared.ownership.workspaceId = id := by rw [hownership]; rfl
  unfold PreparedWorkspace.revalidate
  refine Finds.bind (finds_revalidate h.held.path fun _ => h.held.at) fun _ _ => ?_
  refine Finds.bind (finds_forM (P := fun _ => True) fun child hchild => ?_) fun _ _ => ?_
  · simp only [List.mem_cons, List.not_mem_nil, or_false] at hchild
    obtain rfl | rfl | rfl := hchild
    · exact finds_revalidateChild h h.root
    · exact finds_revalidateChild h h.staging
    · exact finds_revalidateChild h h.trash
  refine Finds.bind (finds_forM (P := fun _ => True) fun child hchild => ?_) fun _ _ => ?_
  · simp only [List.mem_cons, List.not_mem_nil, or_false] at hchild
    obtain rfl | rfl := hchild
    · exact (finds_requirePrivate h.staging fun _ => rfl).mono fun _ _ => trivial
    · exact (finds_requirePrivate h.trash fun _ => rfl).mono fun _ _ => trivial
  refine Finds.bind (finds_requireBtrfsMount h.held.path fun hc => ⟨h.held.at, ?_⟩) fun _ _ => ?_
  · rw [hownership]
    exact hmounted hc
  refine Finds.bind (finds_ensure fun _ => ?_) fun _ _ => ?_
  · rw [PreparedWorkspace.Matches, hownership, h.targetRoot, h.stagingRoot, h.trashRoot]
    exact ⟨h.held.identity.symm, rfl, rfl, rfl, rfl, rfl, rfl⟩
  rw [hid]
  refine Finds.bind (finds_callOr trivial fun _ => ⟨(), w, rfl, trivial⟩) fun _ _ => ?_
  refine Finds.bind (finds_readWorkspaceOwnership fun hc => ⟨_, hcalm hc⟩)
    fun current hcurrent => ?_
  refine (finds_ensure fun hc => (hcalm hc).unique hcurrent).mono fun _ hsame => ?_
  rw [← hsame]
  exact hcurrent

/-! ### The whole

The whole creation, by its parts: every call is gradual, and at its end there is a workspace
or a failure. -/

/-- What a creation needs in a quiet world to come to its end. -/
structure Preparable (toml : TomlLibrary) (site : Site κ) (leaf : FileName) (id : WorkspaceId)
    (layout : Layout) (w : World κ) : Prop where
  admissible : Admissible site leaf id layout
  plottable : Plottable leaf id w
  stageable : ∃ uuid, w.documents (.staged ownershipStem uuid) = none
  readsBack : ∀ record : WorkspaceOwnership,
    toml.ReadsBack (Linux.ownershipDocument record).toTable
  parent : site.identity.Valid
  mounted : site.mountId ≠ 0

/-- How a creation ends: with the directories and their ownership, or with a failure.  In a quiet
world that is one to print the ownership, and the directories are there all the same. -/
def Concluded (toml : TomlLibrary) (site : Site κ) (leaf : FileName) (id : WorkspaceId)
    (layout : Layout) (calm : Bool) (w : World κ) :
    Except PortError PreparedWorkspace → World κ → Prop
  | .ok prepared, w' => Unreserved leaf id ∧ ∃ w₁ bytes,
      Erected site leaf id calm w w₁ prepared.root prepared.staging prepared.trash ∧
      encodeWorkspaceOwnership toml prepared.ownership = .ok bytes ∧
      w' = w₁.setDocument (.ownership id) (some bytes) ∧
      Consistent site leaf id layout calm w' prepared ∧ Documented toml w' id prepared.ownership
  | .error e, w' => calm = true → ∃ root staging trash error,
      Erected site leaf id calm w w' root staging trash ∧
      encodeWorkspaceOwnership toml (ownershipOf site leaf id layout site.volumeId site.mountId
        root.identity staging.identity trash.identity) = .error error ∧ e = documentError error

/-- The ownership that is written of created directories keeps the invariant that its decoder
checks. -/
theorem Erected.valid {w' : World κ} {root staging trash : TargetDirectory}
    (h : Erected site leaf id calm w w' root staging trash) (hparent : site.identity.Valid)
    {volumeId : VolumeId} {mountId : UInt64} (hmount : mountId ≠ 0) :
    (ownershipOf site leaf id layout volumeId mountId root.identity staging.identity
      trash.identity).Valid := by
  obtain ⟨w₁, w₂, hroot, hstaging, htrash⟩ := h.created
  have hid : (ownershipOf site leaf id layout volumeId mountId root.identity staging.identity
      trash.identity).workspaceId = id := rfl
  refine valid_of_paths hparent hroot.valid (fun kind => ?_) rfl hid rfl hmount
  cases kind
  · exact ⟨hstaging.valid, rfl⟩
  · exact ⟨htrash.valid, rfl⟩

/-- **The rule of a creation**: its calls are gradual, and it ends with the directories and their
ownership or with a failure; in a quiet world it gets to the end.  The run is followed part by
part: the admission, the vacancy, the three directories, the ownership and the last revalidation.
In a quiet world each of them has what it asks for, except that the ownership may not print. -/
theorem safe_prepareWorkspace (hcalm : calm = true → Preparable toml site leaf id layout w) :
    Safe (environment euid site calm) (fun c s => c.Reads ∨ gradual leaf id toml w c s)
      (Concluded toml site leaf id layout calm w)
      (prepareWorkspace euid toml layout id (site.path leaf)) w := by
  have hstormy : ∀ (e : PortError) (w' : World κ), calm = false →
      Concluded toml site leaf id layout calm w (.error e) w' := by
    intro e w' hfalse hc
    rw [hfalse] at hc
    cases hc
  unfold prepareWorkspace
  refine Attains.thenSafe (Finds.attains (finds_admitTarget fun h => (hcalm h).admissible))
    (fun admission w' hadmission => ?_) hstormy
  obtain ⟨rfl, hadmitted⟩ := hadmission
  rw [hadmitted.name]
  refine Attains.thenSafe (Finds.attains (finds_requireVacant fun h => (hcalm h).plottable.vacant))
    (fun _ w₀ hvacant => ?_) hstormy
  obtain ⟨rfl, hvacant⟩ := hvacant
  have hongoing : Ongoing id w₀ w₀ := ⟨fun _ h => h, fun _ h => h, hvacant.undocumented⟩
  refine Attains.thenSafe (attains_createDirectories hadmitted hongoing fun h =>
    (hcalm h).plottable) (fun created w₁ herected => ?_) hstormy
  obtain ⟨root, staging, trash⟩ := created
  dsimp only at herected ⊢
  obtain ⟨hroot, hstaging, htrash⟩ := herected.stands
  rw [hstaging.path, htrash.path, Linux.absolute_asBytes, Linux.absolute_asBytes]
  change Safe _ _ _ (publishOwnership toml _ >>= _) w₁
  have hrecord : (⟨⟨layout.instanceId, id, admission.volumeId, site.path leaf,
      admission.parent.identity, root.identity,
      ⟨site.path (OperationKind.name id .staging), staging.identity⟩,
      ⟨site.path (OperationKind.name id .trash), trash.identity⟩, none⟩,
      admission.mountId⟩ : WorkspaceOwnership) =
      ownershipOf site leaf id layout admission.volumeId admission.mountId root.identity
        staging.identity trash.identity := by
    rw [hadmitted.held.identity]
    rfl
  rw [hrecord]
  cases hencoded : encodeWorkspaceOwnership toml (ownershipOf site leaf id layout admission.volumeId
      admission.mountId root.identity staging.identity trash.identity) with
  | error error =>
    unfold publishOwnership
    rw [hencoded]
    refine fun hc => ⟨root, staging, trash, error, herected, ?_, rfl⟩
    rw [← (hadmitted.mounted hc).1, ← (hadmitted.mounted hc).2]
    exact hencoded
  | ok bytes =>
    have hconsistent : Consistent site leaf id layout calm
        (w₁.setDocument (.ownership id) (some bytes)) ⟨admission.parent, root, staging, trash,
          ownershipOf site leaf id layout admission.volumeId admission.mountId root.identity
            staging.identity trash.identity, site.path leaf, _, _⟩ :=
      ⟨hadmitted.held, ⟨hroot.path, hroot.named, rfl, hroot.device⟩,
        ⟨hstaging.path, hstaging.named, rfl, hstaging.device⟩,
        ⟨htrash.path, htrash.named, rfl, htrash.device⟩, ⟨_, _, rfl, hadmitted.mounted⟩, rfl, rfl,
        rfl⟩
    have hstood : Stood leaf id w₁ (ownershipOf site leaf id layout admission.volumeId
        admission.mountId root.identity staging.identity trash.identity) :=
      ⟨hconsistent.stood.target, hconsistent.stood.operation⟩
    refine Attains.thenSafe (attains_publishOwnership (herected.ongoing hongoing) rfl hstood
      hencoded fun h => ?_) (fun _ w₂ hw₂ => ?_) hstormy
    · rw [herected.documents]
      exact (hcalm h).stageable
    subst hw₂
    refine Attains.thenSafe (Finds.attains (finds_revalidatePrepared hconsistent fun h => ?_))
      (fun _ w₃ hdocumented => ?_) hstormy
    · refine ⟨rfl, bytes, World.documents_setDocument_self w₁ _ _, ?_⟩
      have hvalid : (ownershipOf site leaf id layout admission.volumeId admission.mountId
          root.identity staging.identity trash.identity).Valid :=
        herected.valid (hcalm h).parent ((hadmitted.mounted h).2 ▸ (hcalm h).mounted)
      exact Linux.roundTrips_ownership.read_back _ _ hvalid ((hcalm h).readsBack _) hencoded
    obtain ⟨rfl, hdocumented⟩ := hdocumented
    refine Attains.thenSafe (Finds.attains (finds_callOr trivial fun _ => ⟨(), _, rfl, trivial⟩))
      (fun _ w₄ hsame => ?_) hstormy
    obtain ⟨rfl, -⟩ := hsame
    exact ⟨hadmitted.unreserved, w₁, bytes, herected, hencoded, rfl, hconsistent, hdocumented⟩

/-! ### Any world

Nothing is assumed of the world any more: whatever was there before is there at every
moment, and whatever is new has a name of the workspace or one to stage under.  The step
lemma is on a single call, failed ones included. -/

/-- What was there is there, what is new has a name of the workspace or one to stage under, and a
new ownership describes directories that are there. -/
structure Extended (toml : TomlLibrary) (leaf : FileName) (id : WorkspaceId)
    (start w : World κ) : Prop where
  children : ∀ name child, start.children name = some child → w.children name = some child
  documents : ∀ name bytes, start.documents name = some bytes → w.documents name = some bytes
  named : ∀ name, start.children name = none → w.children name ≠ none →
    name = leaf.bytes ∨ (∃ kind : OperationKind, name = (kind.name id).bytes) ∨
      ∃ uuid, name = temporaryName uuid
  documented : ∀ name, start.documents name = none → w.documents name ≠ none →
    name = .ownership id ∨ ∃ uuid, name = .staged ownershipStem uuid
  ownership : w.documents (.ownership id) = start.documents (.ownership id) ∨
    ∃ record bytes, w.documents (.ownership id) = some bytes ∧
      encodeWorkspaceOwnership toml record = .ok bytes ∧ Stood leaf id w record

/-- A world extends itself. -/
theorem Extended.refl (w : World κ) : Extended toml leaf id w w :=
  ⟨fun _ _ h => h, fun _ _ h => h, fun _ hnone h => absurd hnone h,
    fun _ hnone h => absurd hnone h, .inl rfl⟩

/-- While there is no ownership, what is new may come and go.  A child that was there at the start
has another name, and the one that is set has one of the names that a creation may use. -/
theorem Extended.setChild (h : Extended toml leaf id start w)
    (hundocumented : w.documents (.ownership id) = none) {name : List UInt8}
    (hnew : start.children name = none)
    (hname : name = leaf.bytes ∨ (∃ kind : OperationKind, name = (kind.name id).bytes) ∨
      ∃ uuid, name = temporaryName uuid) (child : Option (Child κ)) :
    Extended toml leaf id start (w.setChild name child) where
  children other child' hchild := by
    have hne : other ≠ name := by
      rintro rfl
      rw [hnew] at hchild
      cases hchild
    exact (World.children_setChild_of_ne w _ hne).trans (h.children other child' hchild)
  documents := h.documents
  named other hnone hsome := by
    by_cases hother : other = name
    · rw [hother]
      exact hname
    · rw [World.children_setChild_of_ne w _ hother] at hsome
      exact h.named other hnone hsome
  documented := h.documented
  ownership := by
    rcases h.ownership with hsame | ⟨record, bytes, hbytes, -⟩
    · exact .inl hsame
    · rw [hundocumented] at hbytes
      cases hbytes

/-- What is staged beside an ownership may come and go.  A document that was there at the start has
another name, and the name that is set is a staged one. -/
theorem Extended.setDocument (h : Extended toml leaf id start w) {name : DocumentName}
    (hnew : start.documents name = none) (hname : ∃ uuid, name = .staged ownershipStem uuid)
    (bytes : Option (List UInt8)) : Extended toml leaf id start (w.setDocument name bytes) where
  children := h.children
  documents other bytes' hbytes := by
    have hne : other ≠ name := by
      rintro rfl
      rw [hnew] at hbytes
      cases hbytes
    exact (World.documents_setDocument_of_ne w _ hne).trans (h.documents other bytes' hbytes)
  named := h.named
  documented other hnone hsome := by
    by_cases hother : other = name
    · rw [hother]
      exact .inr hname
    · rw [World.documents_setDocument_of_ne w _ hother] at hsome
      exact h.documented other hnone hsome
  ownership := by
    obtain ⟨uuid, rfl⟩ := hname
    have hown := World.documents_setDocument_of_ne w bytes
      (show DocumentName.ownership id ≠ .staged ownershipStem uuid from nofun)
    rcases h.ownership with hsame | ⟨record, stored, hstored, hencoded, hstood⟩
    · exact .inl (hown.trans hsame)
    · exact .inr ⟨record, stored, hown.trans hstored, hencoded, hstood.target, hstood.operation⟩

/-- An entry that is missing in an extended world was missing at the start. -/
theorem Extended.new_child (h : Extended toml leaf id start w) {name : List UInt8}
    (hnone : w.children name = none) : start.children name = none := by
  by_contra hsome
  obtain ⟨child, hchild⟩ := Option.ne_none_iff_exists'.mp hsome
  rw [h.children name child hchild] at hnone
  cases hnone

/-- A document that is missing in an extended world was missing at the start. -/
theorem Extended.new_document (h : Extended toml leaf id start w) {name : DocumentName}
    (hnone : w.documents name = none) : start.documents name = none := by
  by_contra hsome
  obtain ⟨bytes, hbytes⟩ := Option.ne_none_iff_exists'.mp hsome
  rw [h.documents name bytes hbytes] at hnone
  cases hnone

/-- The publication of an ownership that describes what is there.  The document was not there at
the start, and what it describes stands; the other parts do not speak of it. -/
theorem Extended.publish (h : Extended toml leaf id start w) {record : WorkspaceOwnership}
    {bytes : List UInt8} (hundocumented : w.documents (.ownership id) = none)
    (hencoded : encodeWorkspaceOwnership toml record = .ok bytes)
    (hstood : Stood leaf id w record) :
    Extended toml leaf id start (w.setDocument (.ownership id) (some bytes)) where
  children := h.children
  documents other bytes' hbytes := by
    have hne : other ≠ .ownership id := by
      rintro rfl
      rw [h.new_document hundocumented] at hbytes
      cases hbytes
    exact (World.documents_setDocument_of_ne w _ hne).trans (h.documents other bytes' hbytes)
  named := h.named
  documented other hnone hsome := by
    by_cases hother : other = .ownership id
    · exact .inl hother
    · rw [World.documents_setDocument_of_ne w _ hother] at hsome
      exact h.documented other hnone hsome
  ownership := .inr ⟨record, bytes, World.documents_setDocument_self w _ _, hencoded,
    hstood.target, hstood.operation⟩

/-- A gradual call that writes extends the world further.  There is one case for each call that
writes, and its guard is what the lemmas on single updates ask for. -/
theorem extended_effect {w' : World κ} {c : LifecycleCall}
    (hguard : gradual leaf id toml start c w) (h : Extended toml leaf id start w)
    {value : c.Value} (heffect : c.effect euid site w value w') :
    Extended toml leaf id start w' := by
  cases c
  case mkdir =>
    obtain ⟨hundocumented, uuid, rfl⟩ := hguard
    obtain ⟨hnone, identity, -, rfl⟩ := heffect
    exact h.setChild hundocumented (h.new_child hnone) (.inr (.inr ⟨uuid, rfl⟩)) _
  case renameNoreplace =>
    obtain ⟨hundocumented, hnew, ⟨uuid, rfl⟩, htarget⟩ := hguard
    obtain ⟨hnone, child, -, rfl⟩ := heffect
    have hmoved := h.setChild hundocumented hnew (.inr (.inr ⟨uuid, rfl⟩)) none
    refine hmoved.setChild hundocumented (h.new_child hnone) ?_ _
    exact htarget.imp_right .inl
  case rmdir =>
    obtain ⟨hundocumented, hnew, uuid, rfl⟩ := hguard
    obtain ⟨-, rfl⟩ := heffect
    exact h.setChild hundocumented hnew (.inr (.inr ⟨uuid, rfl⟩)) none
  case stageDocument =>
    obtain ⟨-, rfl⟩ := hguard
    obtain ⟨uuid, rfl, hnone, rfl⟩ := heffect
    exact h.setDocument (h.new_document hnone) ⟨uuid, rfl⟩ _
  case publishDocument =>
    obtain ⟨rfl, hnew, ⟨uuid, rfl⟩, record, bytes, hstaged, hencoded, hstood⟩ := hguard
    obtain ⟨hnone, bytes', hbytes', rfl⟩ := heffect
    obtain rfl := Option.some.inj (hstaged.symm.trans hbytes')
    have hdropped := h.setDocument hnew ⟨uuid, rfl⟩ none
    refine hdropped.publish ?_ hencoded ⟨hstood.target, hstood.operation⟩
    have hother : DocumentName.ownership id ≠ .staged ownershipStem uuid := nofun
    exact (World.documents_setDocument_of_ne w _ hother).trans hnone
  all_goals exact hguard.elim

/-- A step of a creation, whether its call succeeds or fails, extends the world further.  A call
that fails has had no effect, its whole effect, or the part of it that a stopped write leaves
behind; each of these extends the world. -/
theorem extended_step {w' : World κ} {c : LifecycleCall} {r : c.Result}
    (hguard : c.Reads ∨ gradual leaf id toml start c w) (h : Extended toml leaf id start w)
    (hstep : (faulty euid site).step w c r w') : Extended toml leaf id start w' := by
  rcases hguard with hreads | hguard
  · rw [step_reads euid site hreads hstep]
    exact h
  · cases r with
    | ok value => exact extended_effect hguard h hstep.1
    | error e =>
      obtain ⟨-, rfl | ⟨value, heffect⟩ | hpart, -⟩ := hstep
      · exact h
      · exact extended_effect hguard h heffect
      · cases c
        case stageDocument =>
          obtain ⟨-, rfl⟩ := hguard
          obtain ⟨uuid, part, hnone, -, rfl⟩ := hpart
          exact h.setDocument (h.new_document hnone) ⟨uuid, rfl⟩ _
        case publishDocument =>
          obtain ⟨-, hnew, ⟨uuid, rfl⟩, -⟩ := hguard
          obtain rfl := hpart
          exact h.setDocument hnew ⟨uuid, rfl⟩ none
        all_goals first | exact hpart.elim | exact hguard.elim

/-- The rule of a creation in any world whatever, where every call may fail. -/
theorem faulty_prepareWorkspace (w : World κ) :
    Safe (faulty euid site) (fun c s => c.Reads ∨ gradual leaf id toml w c s)
      (Concluded toml site leaf id layout false w)
      (prepareWorkspace euid toml layout id (site.path leaf)) w :=
  safe_prepareWorkspace nofun

/-- **Every moment of a creation extends the start**: what was there is there, and what is new
belongs to the workspace. -/
theorem extended_of_visits {w' : World κ}
    (run : Visits (faulty euid site) (prepareWorkspace euid toml layout id (site.path leaf)) w w') :
    Extended toml leaf id w w' :=
  Safe.of_visits (fun s => Extended toml leaf id w s) (faulty_prepareWorkspace w) (.refl w)
    (fun _ _ _ _ hguard h hstep => extended_step hguard h hstep) run

/-- Every state that a run visits extends the first. -/
def OnlyExtends (euid : UInt32) (toml : TomlLibrary) (site : Site κ) (leaf : FileName)
    (id : WorkspaceId) (x : Handling PreparedWorkspace) (w : World κ) : Prop :=
  ∀ w', Visits (faulty euid site) x w w' → Extended toml leaf id w w'

/-- **A creation adds, and nothing else.**  In any world, wherever a run of it has got to, every
entry and every document that was there is as it was, what is new is a directory of the workspace
or one that was staged, and an ownership is there only where all that it describes is. -/
theorem prepareWorkspace_extends (euid : UInt32) (toml : TomlLibrary) (site : Site κ)
    (leaf : FileName) (id : WorkspaceId) (layout : Layout) (w : World κ) :
    OnlyExtends euid toml site leaf id (prepareWorkspace euid toml layout id (site.path leaf)) w :=
  fun _ run => extended_of_visits run

end Lifecycle
end ThinWorkspace
