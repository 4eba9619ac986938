/-
# The life of a workspace after its creation

Source: `remove_workspace` and `inspect_removal_container` in
`crates/thinws-adapter-linux/src/workspace.rs`.

A history is any sequence of removals and inspections, each complete or stopped between two of
its calls, in a world where calls fail part of the way, with whatever else happens in between
(`Occurs`).  `Legal` says what is never broken: the ownership is readable, the target is at no more
than one of its two places, it is isolated only where the ownership registers this, and no
operation directory is left once it has been moved (`legal_of_history`).  From every such state a
removal in a quiet world comes to its end (`removeWorkspace_completes`).
-/

import Mathlib.Logic.Relation
import ThinWorkspace.Lifecycle.Isolate

namespace ThinWorkspace
namespace Lifecycle

open ThinWorkspace.Core Lib Ports
open Linux (WorkspaceOwnership encodeWorkspaceOwnership)
open Program (Achieves Safe Visits)

variable {κ : Type} {euid : UInt32} {toml : TomlLibrary} {site : Site κ} {leaf : FileName}

/-! ### What is never broken

A legal state: the ownership is the recorded one, perhaps with the path of the isolation,
and the directories that are still there have the identities it names.  Which of them may be
gone is said as well. -/

section Legal

variable (toml : TomlLibrary) (site : Site κ) (leaf : FileName) (id : WorkspaceId)
  (record : WorkspaceOwnership)

/-- The ownership is the one that was recorded, or that with the path of the isolation. -/
def Kept (w : World κ) (ownership : WorkspaceOwnership) : Prop :=
  Documented toml w id ownership ∧ (ownership = record ∨ ownership = isolate site id record)

/-- The directory of that name has the identity. -/
def Holds (w : World κ) (name : FileName) (identity : Linux.HistoricalDirectoryIdentity) : Prop :=
  ∃ folder, w.folder? name.bytes = some folder ∧ folder.identity = identity

/-- What holds of a workspace from its creation on. -/
structure Legal (w : World κ) : Prop where
  kept : ∃ ownership, Kept toml site id record w ownership
  operation : ∀ kind : OperationKind, w.children (kind.name id).bytes = none ∨
    ∃ folder, w.folder? (kind.name id).bytes = some folder ∧
      folder.identity = (kind.evidence record).identity ∧ folder.isPrivate = true
  target : (Holds w leaf record.target ∧ w.children (isolated id).bytes = none) ∨
    (w.children leaf.bytes = none ∧ Cleared id w ∧ (w.children (isolated id).bytes = none ∨
      (Holds w (isolated id) record.target ∧
        Documented toml w id (isolate site id record))))

end Legal

variable {id : WorkspaceId} {record : WorkspaceOwnership} {w w' : World κ}

/-- An ownership that is kept names the same directories as the record. -/
theorem Kept.target {ownership : WorkspaceOwnership} (h : Kept toml site id record w ownership) :
    ownership.target = record.target ∧ ∀ kind : OperationKind,
      kind.evidence ownership = kind.evidence record := by
  rcases h.2 with rfl | rfl
  · exact ⟨rfl, fun _ => rfl⟩
  · refine ⟨rfl, fun kind => ?_⟩
    cases kind
    · rfl
    · rfl

/-- With an isolated path it is the record with that path. -/
theorem Kept.registered {ownership : WorkspaceOwnership}
    (h : Kept toml site id record w ownership) (hrecord : record.isolatedPath = none)
    (hsome : ownership.isolatedPath.isSome = true) : ownership = isolate site id record := by
  rcases h.2 with rfl | rfl
  · rw [hrecord] at hsome
    cases hsome
  · rfl

/-- Without an isolated path it is the record itself. -/
theorem Kept.unregistered {ownership : WorkspaceOwnership}
    (h : Kept toml site id record w ownership) (hnone : ownership.isolatedPath = none) :
    ownership = record := by
  rcases h.2 with rfl | rfl
  · rfl
  · cases hnone

/-- A state stays legal while the entries of the workspace and its ownership stay.  Everything the
legality speaks of is read from these entries and this document. -/
theorem Legal.congr (h : Legal toml site leaf id record w)
    (hdocument : w'.documents (.ownership id) = w.documents (.ownership id))
    (hchildren : ∀ name, name = leaf.bytes ∨ name ∈ Application.siblingNames id →
      w'.children name = w.children name) : Legal toml site leaf id record w' := by
  have hkind : ∀ kind : OperationKind,
      w'.children (kind.name id).bytes = w.children (kind.name id).bytes :=
    fun kind => hchildren _ (.inr (kind.name_mem id))
  have hisolated := hchildren _ (.inr (isolatedName_mem id))
  have hleaf := hchildren _ (.inl rfl)
  have hholds : ∀ {name : FileName} {identity}, w'.children name.bytes = w.children name.bytes →
      Holds w name identity → Holds w' name identity := fun hname ⟨folder, hfolder, hidentity⟩ =>
    ⟨folder, (w.folder?_congr hname).trans hfolder, hidentity⟩
  refine ⟨?_, fun kind => ?_, ?_⟩
  · obtain ⟨ownership, hdocumented, hsame⟩ := h.kept
    exact ⟨ownership, hdocumented.congr hdocument, hsame⟩
  · rw [hkind kind, w.folder?_congr (hkind kind)]
    exact h.operation kind
  · rcases h.target with ⟨hactive, hnone⟩ | ⟨hnone, hcleared, hrest⟩
    · exact .inl ⟨hholds hleaf hactive, hisolated.trans hnone⟩
    · refine .inr ⟨hleaf.trans hnone, fun kind => (hkind kind).trans (hcleared kind), ?_⟩
      rcases hrest with hgone | ⟨hmoved, hregistered⟩
      · exact .inl (hisolated.trans hgone)
      · exact .inr ⟨hholds hisolated hmoved, hregistered.congr hdocument⟩

/-- The contents of a directory may change.  A directory keeps its identity when its contents
change, and only identities are asked for. -/
theorem Legal.setContents (h : Legal toml site leaf id record w) {name : List UInt8}
    {folder : Folder κ} (hfolder : w.folder? name = some folder) (contents : κ) :
    Legal toml site leaf id record
      (w.setChild name (some (.folder { folder with contents := contents }))) := by
  have hold := World.children_of_folder? w hfolder
  have hnone : ∀ {other}, w.children other = none →
      (w.setChild name (some (.folder { folder with contents := contents }))).children other =
        none := by
    intro other hother
    rw [World.children_setChild_of_ne, hother]
    rintro rfl
    rw [hold] at hother
    cases hother
  have hfolder' : ∀ {other found}, w.folder? other = some found → ∃ found',
      (w.setChild name (some (.folder { folder with contents := contents }))).folder? other =
        some found' ∧ found'.identity = found.identity ∧ found'.isPrivate = found.isPrivate := by
    intro other found hfound
    by_cases hother : other = name
    · rw [hother, hfolder] at hfound
      obtain rfl := Option.some.inj hfound
      refine ⟨{ folder with contents := contents }, World.folder?_of_children _ ?_, rfl, rfl⟩
      rw [hother]
      exact World.children_setChild_self _ _ _
    · exact ⟨found, (World.folder?_setChild_of_ne w _ hother).trans hfound, rfl, rfl⟩
  have hholds : ∀ {other : FileName} {identity}, Holds w other identity →
      Holds (w.setChild name (some (.folder { folder with contents := contents }))) other
        identity := by
    rintro other identity ⟨found, hfound, hidentity⟩
    obtain ⟨found', hfound', hsame, -⟩ := hfolder' hfound
    exact ⟨found', hfound', hsame.trans hidentity⟩
  refine ⟨?_, fun kind => ?_, ?_⟩
  · obtain ⟨ownership, hdocumented, hsame⟩ := h.kept
    exact ⟨ownership, hdocumented.congr rfl, hsame⟩
  · rcases h.operation kind with hgone | ⟨found, hfound, hidentity, hprivate⟩
    · exact .inl (hnone hgone)
    · obtain ⟨found', hfound', hsame, hprivate'⟩ := hfolder' hfound
      exact .inr ⟨found', hfound', hsame.trans hidentity, hprivate'.trans hprivate⟩
  · rcases h.target with ⟨hactive, hgone⟩ | ⟨hleaf, hcleared, hrest⟩
    · exact .inl ⟨hholds hactive, hnone hgone⟩
    · refine .inr ⟨hnone hleaf, fun kind => hnone (hcleared kind), ?_⟩
      rcases hrest with hgone | ⟨hmoved, hregistered⟩
      · exact .inl (hnone hgone)
      · exact .inr ⟨hholds hmoved, hregistered.congr rfl⟩

/-- An operation directory may go while the target is in place.  The other operation directory and
both places of the target have other names. -/
theorem Legal.removeOperation (h : Legal toml site leaf id record w) (hfree : Unreserved leaf id)
    (kind : OperationKind) :
    Legal toml site leaf id record (w.setChild (kind.name id).bytes none) := by
  have hplace : ∀ at', (w.setChild (kind.name id).bytes none).children (place leaf id at').bytes =
      w.children (place leaf id at').bytes := fun at' =>
    World.children_setChild_of_ne w _ (hfree.place_ne kind at')
  have hholds : ∀ at' {identity}, Holds w (place leaf id at') identity →
      Holds (w.setChild (kind.name id).bytes none) (place leaf id at') identity := by
    rintro at' identity ⟨folder, hfolder, hidentity⟩
    exact ⟨folder, (w.folder?_congr (hplace at')).trans hfolder, hidentity⟩
  refine ⟨?_, fun other => ?_, ?_⟩
  · obtain ⟨ownership, hdocumented, hsame⟩ := h.kept
    exact ⟨ownership, hdocumented.congr rfl, hsame⟩
  · by_cases hother : (other.name id).bytes = (kind.name id).bytes
    · rw [hother]
      exact .inl (World.children_setChild_self _ _ _)
    · rw [World.children_setChild_of_ne w _ hother, World.folder?_setChild_of_ne w _ hother]
      exact h.operation other
  · rcases h.target with ⟨hactive, hnone⟩ | ⟨hnone, hcleared, hrest⟩
    · exact .inl ⟨hholds false hactive, (hplace true).trans hnone⟩
    · refine .inr ⟨(hplace false).trans hnone, hcleared.setChild (.inl rfl), ?_⟩
      rcases hrest with hgone | ⟨hmoved, hregistered⟩
      · exact .inl ((hplace true).trans hgone)
      · exact .inr ⟨hholds true hmoved, hregistered.congr rfl⟩

/-! ### A permitted call breaks nothing

A removal makes permitted calls only, and each of them leaves a legal state, even where it
fails part of the way. -/

/-- The record as `prepare_workspace` makes it, and a TOML library that reads back what it has
printed of the update. -/
structure Registrable (toml : TomlLibrary) (site : Site κ) (leaf : FileName) (id : WorkspaceId)
    (record : WorkspaceOwnership) : Prop where
  unreserved : Unreserved leaf id
  workspaceId : record.workspaceId = id
  targetPath : record.targetPath = site.path leaf
  valid : record.Valid
  unregistered : record.isolatedPath = none
  readsBack : toml.ReadsBack (Linux.ownershipDocument (isolate site id record)).toTable

/-- Another document does not matter for a legal state. -/
theorem Legal.setDocument (h : Legal toml site leaf id record w) {name : DocumentName}
    (hname : name ≠ .ownership id) (bytes : Option (List UInt8)) :
    Legal toml site leaf id record (w.setDocument name bytes) :=
  h.congr (World.documents_setDocument_of_ne w bytes hname.symm) fun _ _ => rfl

/-- A staged document is not the ownership. -/
theorem staged_ne {stem : String} {uuid : UuidV7} :
    DocumentName.staged stem uuid ≠ .ownership id := nofun

/-- The directory that is removed is one of the three, by its name. -/
theorem Doomed.cases {ownership : WorkspaceOwnership} {name : FileName}
    (h : Doomed site leaf id w ownership name) :
    (∃ kind : OperationKind, name = kind.name id) ∨ (name = isolated id ∧
      w.children leaf.bytes = none ∧ Cleared id w) := by
  cases h with
  | operation => exact .inl ⟨_, rfl⟩
  | target hlocated hcleared => exact .inr ⟨rfl, hlocated.other, hcleared⟩

/-- The isolated target may go. -/
theorem Legal.removeTarget (h : Legal toml site leaf id record w)
    (hfree : Unreserved leaf id) (hleaf : w.children leaf.bytes = none) (hcleared : Cleared id w) :
    Legal toml site leaf id record (w.setChild (isolated id).bytes none) := by
  refine ⟨?_, fun kind => .inl (hcleared.setChild (.inl rfl) kind), .inr ⟨?_,
    hcleared.setChild (.inl rfl), .inl (World.children_setChild_self _ _ _)⟩⟩
  · obtain ⟨ownership, hdocumented, hsame⟩ := h.kept
    exact ⟨ownership, hdocumented.congr rfl, hsame⟩
  · exact (World.children_setChild_of_ne w _ hfree.leaf_ne).trans hleaf

/-- A permitted call that writes leaves a legal state.  There is one case for each call that
writes.  The exchange of the ownership keeps the recorded identities, the rename moves the target
to its second place, and a removal takes away what the guard names. -/
theorem legal_effect (hmade : Registrable toml site leaf id record)
    (h : Legal toml site leaf id record w) {c : LifecycleCall}
    (hguard : permitted site leaf id toml c w) (hwrites : ¬c.Reads) {value : c.Value}
    (heffect : c.effect euid site w value w') : Legal toml site leaf id record w' := by
  cases c
  case stageDocument =>
    obtain ⟨uuid, rfl, -, rfl⟩ := heffect
    exact h.setDocument staged_ne _
  case publishDocument => exact hguard.elim
  case exchangeDocument =>
    obtain ⟨rfl, ownership, uuid, bytes, rfl, hdocumented, hnone, hbytes, hencoded⟩ := hguard
    obtain ⟨a, b, ha, hb, rfl⟩ := heffect
    obtain rfl := Option.some.inj (hbytes.symm.trans ha)
    obtain ⟨current, hcurrent⟩ := h.kept
    obtain rfl := hcurrent.1.unique hdocumented
    obtain rfl := hcurrent.unregistered hnone
    -- The document that takes the place of the old one has the path.
    have hpublished : Documented toml
        ((w.setDocument (.staged updateStem uuid) (some b)).setDocument (.ownership id)
          (some bytes)) id (isolate site id ownership) := by
      refine ⟨hmade.workspaceId, bytes, World.documents_setDocument_self _ _ _, ?_⟩
      exact Linux.roundTrips_ownership.read_back _ _
        (isolate_valid hmade.valid hmade.targetPath hmade.workspaceId) hmade.readsBack hencoded
    refine ⟨⟨_, hpublished, .inr rfl⟩, h.operation, ?_⟩
    refine h.target.imp_right fun ⟨hleaf, hcleared, hrest⟩ => ⟨hleaf, hcleared, ?_⟩
    exact hrest.imp_right fun hmoved => ⟨hmoved.1, hpublished⟩
  case removeDocument =>
    obtain ⟨uuid, rfl⟩ := hguard
    obtain ⟨-, rfl⟩ := heffect
    exact h.setDocument staged_ne _
  case dropDocument =>
    obtain ⟨uuid, rfl⟩ := hguard
    rcases heffect with rfl | rfl
    · exact h
    · exact h.setDocument staged_ne _
  case mkdir => exact hguard.elim
  case renameNoreplace =>
    obtain ⟨rfl, rfl, hcleared, ownership, directory, hdocumented, hsome, hlocated⟩ := hguard
    obtain ⟨-, child, hchild, rfl⟩ := heffect
    obtain ⟨current, hcurrent⟩ := h.kept
    obtain rfl := hcurrent.1.unique hdocumented
    obtain rfl := hcurrent.registered hmade.unregistered hsome
    obtain ⟨folder, hstands⟩ := hlocated.stands
    obtain rfl := Option.some.inj (hchild.symm.trans (World.children_of_folder? w hstands.named))
    have hcleared' : Cleared id ((w.setChild leaf.bytes none).setChild (isolated id).bytes
        (some (.folder folder))) := (hcleared.setChild (.inl rfl)).setChild (.inr rfl)
    refine ⟨⟨_, hdocumented.congr rfl, .inr rfl⟩, fun kind => .inl (hcleared' kind),
      .inr ⟨?_, hcleared', .inr ⟨⟨folder, ?_, ?_⟩, hdocumented.congr rfl⟩⟩⟩
    · rw [World.children_setChild_of_ne _ _ hlocated.leaf_ne]
      exact World.children_setChild_self w _ _
    · exact World.folder?_of_children _ (World.children_setChild_self _ _ _)
    · exact hstands.identity.trans hlocated.identity
  case rmdir =>
    obtain ⟨ownership, entry, hdocumented, hdoomed, rfl⟩ := hguard
    obtain ⟨-, rfl⟩ := heffect
    rcases hdoomed.cases with ⟨kind, rfl⟩ | ⟨rfl, hleaf, hcleared⟩
    · exact h.removeOperation hmade.unreserved kind
    · exact h.removeTarget hmade.unreserved hleaf hcleared
  case removeContents =>
    obtain ⟨name, folder, hstands, -, rfl⟩ := heffect
    exact h.setContents hstands.named _
  all_goals exact absurd trivial hwrites

/-- **A permitted call breaks nothing**, even where it fails part of the way.  A call that fails
has had no effect, its whole effect, or a part of it, which shows in a staged document or in the
contents of a directory. -/
theorem legal_step (hmade : Registrable toml site leaf id record) {c : LifecycleCall}
    {r : c.Result} (hguard : permitted site leaf id toml c w)
    (h : Legal toml site leaf id record w) (hstep : (faulty euid site).step w c r w') :
    Legal toml site leaf id record w' := by
  by_cases hreads : c.Reads
  · rw [step_reads euid site hreads hstep]
    exact h
  · cases r with
    | ok value => exact legal_effect hmade h hguard hreads hstep.1
    | error e =>
      obtain ⟨-, rfl | ⟨value, heffect⟩ | hpart, -⟩ := hstep
      · exact h
      · exact legal_effect hmade h hguard hreads heffect
      · cases c
        case stageDocument =>
          obtain ⟨uuid, part, -, -, rfl⟩ := hpart
          exact h.setDocument staged_ne _
        case publishDocument => exact hguard.elim
        case exchangeDocument =>
          obtain ⟨-, -, uuid, -, rfl, -⟩ := hguard
          obtain rfl := hpart
          exact h.setDocument staged_ne _
        case removeContents =>
          obtain ⟨name, folder, contents, hstands, rfl⟩ := hpart
          exact h.setContents hstands.named contents
        all_goals exact hpart.elim

/-! ### Where the target is

In a legal state the target is at one place at most, and is the directory that was recorded.
-/

/-- The path of the target, at its own place or where it is isolated. -/
def whereabouts (site : Site κ) (leaf : FileName) (id : WorkspaceId) (w : World κ) :
    Option AbsolutePath :=
  match w.children leaf.bytes, w.children (isolated id).bytes with
  | some _, _ => some (site.path leaf)
  | none, some _ => some (site.path (isolated id))
  | none, none => none

/-- A target that is located is found where it stands, since its other place is free. -/
theorem Located.whereabouts {ownership : WorkspaceOwnership} {directory : TargetDirectory}
    {atIsolatedPath : Bool} (h : Located site leaf id w ownership directory atIsolatedPath) :
    whereabouts site leaf id w = some (site.path (place leaf id atIsolatedPath)) := by
  obtain ⟨folder, hstands⟩ := h.stands
  have hchild := World.children_of_folder? w hstands.named
  have hother := h.other
  unfold Lifecycle.whereabouts
  cases atIsolatedPath with
  | false =>
    rw [show w.children leaf.bytes = _ from hchild]
    rfl
  | true =>
    rw [show w.children leaf.bytes = none from hother,
      show w.children (isolated id).bytes = _ from hchild]
    rfl

/-- A target that is at neither place is found nowhere. -/
theorem whereabouts_eq_none (h : ∀ at', w.children (place leaf id at').bytes = none) :
    whereabouts site leaf id w = none := by
  unfold whereabouts
  rw [show w.children leaf.bytes = none from h false,
    show w.children (isolated id).bytes = none from h true]

/-- What the target of a legal state is held as.  The legality allows three situations of the
target: in place, isolated, or gone from both. -/
theorem Legal.located (h : Legal toml site leaf id record w) {ownership : WorkspaceOwnership}
    (hown : Documented toml w id ownership) :
    (∀ at', w.children (place leaf id at').bytes = none) ∨
      ∃ directory at', Located site leaf id w ownership directory at' := by
  obtain ⟨current, hcurrent⟩ := h.kept
  obtain rfl := hcurrent.1.unique hown
  have hhold : ∀ (name : FileName) (folder : Folder κ), w.folder? name.bytes = some folder →
      site.Stands w ⟨(site.path name).asBytes, folder.identity, folder.device⟩ name folder :=
    fun name folder hfolder => ⟨rfl, hfolder, rfl, rfl⟩
  rcases h.target with ⟨⟨folder, hfolder, hidentity⟩, hnone⟩ | ⟨hleaf, -, hgone | hmoved⟩
  · exact .inr ⟨_, false, ⟨folder, hhold leaf folder hfolder⟩,
      hidentity.trans hcurrent.target.1.symm, hnone, nofun⟩
  · refine .inl fun at' => ?_
    cases at'
    · exact hleaf
    · exact hgone
  · obtain ⟨⟨folder, hfolder, hidentity⟩, hregistered⟩ := hmoved
    obtain rfl := hregistered.unique hown
    exact .inr ⟨_, true, ⟨folder, hhold (isolated id) folder hfolder⟩, hidentity, hleaf,
      fun _ => rfl⟩

/-! ### Looking and removing

The events of a history: removals and inspections, complete or stopped, an operation
directory that is cleared, contents that change, and anything that happens elsewhere in the
directory. -/

section Runs

variable {layout : Layout} {reservation : WorkspaceReservation} {calm : Bool}

/-- An inspection finds where the target is; in a quiet world with a recorded ownership it answers.
The inspection registers the target, looks for it at both places, and answers with the path at
which it found it, if it found it at all. -/
theorem finds_inspectRemovalContainer (htarget : reservation.targetPath = site.path leaf)
    (hcalm : calm = true → ∃ ownership, Documented toml w reservation.workspaceId ownership ∧
      Recorded site layout reservation ownership ∧
      Placed site leaf reservation.workspaceId w ownership) :
    Finds euid site calm (fun answer => answer = whereabouts site leaf reservation.workspaceId w)
      (inspectRemovalContainer toml layout reservation) w := by
  refine Finds.bind (finds_callOr trivial fun _ => ⟨(), w, rfl, trivial⟩) fun _ _ => ?_
  refine Finds.bind (finds_callOr trivial fun _ => ⟨(), w, rfl, trivial⟩) fun _ _ => ?_
  refine Finds.bind (finds_registeredTarget htarget fun h => ?_) fun registered hregistered => ?_
  · obtain ⟨ownership, hdocumented, hrecorded, -⟩ := hcalm h
    exact ⟨ownership, hdocumented, hrecorded⟩
  obtain ⟨hdocumented, hsound, -⟩ := hregistered
  refine Finds.bind (finds_locateTarget hsound fun h => ?_) fun located hlocated => ?_
  · obtain ⟨ownership, hown, -, hplaced⟩ := hcalm h
    obtain rfl := hdocumented.unique hown
    exact hplaced
  refine Finds.bind (finds_revalidate hsound.parent_path fun _ => hsound.parent_at) fun _ _ => ?_
  refine Finds.bind (finds_readWorkspaceOwnership fun _ => ⟨_, hdocumented⟩)
    fun current hcurrent => ?_
  refine Finds.bind (finds_ensure fun _ => hdocumented.unique hcurrent) fun _ _ => ?_
  cases located with
  | none =>
    refine Finds.bind (finds_callOr trivial fun _ => ⟨(), w, rfl, trivial⟩) fun _ _ => ?_
    refine Finds.bind (finds_callOr trivial fun _ => ⟨(), w, rfl, trivial⟩) fun _ _ => ?_
    exact finds_pure (whereabouts_eq_none hlocated).symm
  | some found =>
    obtain ⟨directory, atIsolatedPath⟩ := found
    have hat : Located site leaf reservation.workspaceId w registered.ownership directory
      atIsolatedPath := hlocated
    obtain ⟨folder, hstands⟩ := hat.stands
    refine Finds.bind (finds_revalidate hstands.path fun _ => hstands.at) fun _ _ => ?_
    refine Finds.bind (finds_requireBtrfsMount hstands.path fun h =>
      ⟨hstands.at, hsound.mounted h⟩) fun _ _ => ?_
    refine Finds.bind (finds_callOr trivial fun _ => ⟨(), w, rfl, trivial⟩) fun _ _ => ?_
    refine Finds.bind (finds_callOr trivial fun _ => ⟨(), w, rfl, trivial⟩) fun _ _ => ?_
    rw [hstands.path]
    refine Finds.bind (finds_liftExcept fun _ => ⟨_, Linux.absolute_asBytes _⟩)
      fun path hpath => ?_
    rw [Linux.absolute_asBytes] at hpath
    obtain rfl := Except.ok.inj hpath
    exact finds_pure hat.whereabouts.symm

/-- One event of a history: a removal or an inspection that ran to its end or was stopped, an
operation directory that `clear_workspace_incomplete` removed, contents that changed, or anything
elsewhere. -/
inductive Occurs (euid : UInt32) (toml : TomlLibrary) (site : Site κ) (leaf : FileName)
    (layout : Layout) (reservation : WorkspaceReservation) (w : World κ) : World κ → Prop
  | remove {w' : World κ}
      (run : Visits (faulty euid site) (removeWorkspace euid toml layout reservation) w w') :
      Occurs euid toml site leaf layout reservation w w'
  | inspect {w' : World κ}
      (run : Visits (faulty euid site) (inspectRemovalContainer toml layout reservation) w w') :
      Occurs euid toml site leaf layout reservation w w'
  | cleared (kind : OperationKind) : Occurs euid toml site leaf layout reservation w
      (w.setChild (kind.name reservation.workspaceId).bytes none)
  | contents {name : List UInt8} {folder : Folder κ} (hfolder : w.folder? name = some folder)
      (contents : κ) : Occurs euid toml site leaf layout reservation w
      (w.setChild name (some (.folder { folder with contents := contents })))
  | elsewhere {w' : World κ}
      (hdocument : w'.documents (.ownership reservation.workspaceId) =
        w.documents (.ownership reservation.workspaceId))
      (hchildren : ∀ name, name = leaf.bytes ∨
        name ∈ Application.siblingNames reservation.workspaceId →
          w'.children name = w.children name) :
      Occurs euid toml site leaf layout reservation w w'

/-- An inspection that answers tells where the target is, in any world. -/
theorem faulty_inspectRemovalContainer (htarget : reservation.targetPath = site.path leaf)
    (w : World κ) : Finds euid site false
      (fun answer => answer = whereabouts site leaf reservation.workspaceId w)
      (inspectRemovalContainer toml layout reservation) w :=
  finds_inspectRemovalContainer htarget nofun

/-- A removal makes permitted calls only and, where it returns, has removed all three directories,
in any world. -/
theorem faulty_removeWorkspace (htarget : reservation.targetPath = site.path leaf) (w : World κ) :
    Achieves (faulty euid site) (permitted site leaf reservation.workspaceId toml) (false = false)
      (fun _ w' => ∃ ownership, Documented toml w reservation.workspaceId ownership ∧
        Removed toml site leaf reservation.workspaceId w w' ownership)
      (removeWorkspace euid toml layout reservation) w :=
  Achieves.weaken (attains_removeWorkspace htarget nofun) fun c s h =>
    h.elim (permitted_reads site leaf reservation.workspaceId s c) id

/-- A removal or an inspection, stopped anywhere, leaves a legal state.  A removal keeps to its
guard whatever the world answers, an inspection changes nothing, and the other events are steps of
their own. -/
theorem legal_occurs (htarget : reservation.targetPath = site.path leaf)
    (hmade : Registrable toml site leaf reservation.workspaceId record)
    (h : Legal toml site leaf reservation.workspaceId record w)
    (hoccurs : Occurs euid toml site leaf layout reservation w w') :
    Legal toml site leaf reservation.workspaceId record w' := by
  cases hoccurs with
  | remove run =>
    exact Safe.of_visits (Legal toml site leaf reservation.workspaceId record)
      (faulty_removeWorkspace htarget w) h
      (fun _ _ _ _ hguard hlegal hstep => legal_step hmade hguard hlegal hstep) run
  | inspect run =>
    rw [eq_of_visits (faulty_inspectRemovalContainer htarget w) run]
    exact h
  | cleared kind => exact h.removeOperation hmade.unreserved kind
  | contents hfolder contents => exact h.setContents hfolder contents
  | elsewhere hdocument hchildren => exact h.congr hdocument hchildren

end Runs

end Lifecycle
end ThinWorkspace
