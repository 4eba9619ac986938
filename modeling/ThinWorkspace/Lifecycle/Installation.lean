/-
# All workspaces of a directory

Source: `prepare_workspace`, `clear_workspace_incomplete`, `inspect_removal_container` and
`remove_workspace` in `crates/thinws-adapter-linux/src/workspace.rs`.

The lock of the data root lets one process at a time create, inspect or remove a workspace, but
each may be stopped anywhere and the next may be about another workspace.  No such history breaks
a workspace that was created (`installation_stays_legal`).
-/

import ThinWorkspace.Lifecycle.RoundTrip

namespace ThinWorkspace
namespace Lifecycle

open ThinWorkspace.Core Lib Ports
open Linux (WorkspaceOwnership encodeWorkspaceOwnership documentError)
open Program (Returns Safe Visits)

variable {κ : Type} {euid : UInt32} {toml : TomlLibrary} {site : Site κ} {layout : Layout}
  {record : WorkspaceOwnership} {w w' : World κ}

/-- A workspace that is registered in the directory.  Its name is not one to stage under. -/
structure Member (site : Site κ) where
  leaf : FileName
  reservation : WorkspaceReservation
  target : reservation.targetPath = site.path leaf
  apart : ∀ uuid, leaf.bytes ≠ temporaryName uuid

/-- The identifier of the workspace, which its siblings are named after. -/
def Member.id (member : Member site) : WorkspaceId := member.reservation.workspaceId

/-- An entry of the directory is the workspace's. -/
def Member.Owns (member : Member site) (name : List UInt8) : Prop :=
  name = member.leaf.bytes ∨ name ∈ Application.siblingNames member.id

/-- Two workspaces have nothing in common, as the occupancy of their paths requires. -/
structure Member.Distinct (member other : Member site) : Prop where
  id : member.id ≠ other.id
  owns : ∀ name, member.Owns name → ¬other.Owns name

/-- One event: a creation, a removal or an inspection that ran to its end or was stopped, an
operation directory that `clear_workspace_incomplete` removed, contents that changed, or anything
elsewhere. -/
inductive Happens (euid : UInt32) (toml : TomlLibrary) (site : Site κ) (layout : Layout)
    (members : List (Member site)) (w : World κ) : World κ → Prop
  | prepare {member : Member site} {w' : World κ} (hmember : member ∈ members)
      (run : Visits (faulty euid site)
        (prepareWorkspace euid toml layout member.id (site.path member.leaf)) w w') :
      Happens euid toml site layout members w w'
  | remove {member : Member site} {w' : World κ} (hmember : member ∈ members)
      (run : Visits (faulty euid site)
        (removeWorkspace euid toml layout member.reservation) w w') :
      Happens euid toml site layout members w w'
  | inspect {member : Member site} {w' : World κ} (hmember : member ∈ members)
      (run : Visits (faulty euid site)
        (inspectRemovalContainer toml layout member.reservation) w w') :
      Happens euid toml site layout members w w'
  | cleared {member : Member site} (hmember : member ∈ members) (kind : OperationKind) :
      Happens euid toml site layout members w (w.setChild (kind.name member.id).bytes none)
  | contents {name : List UInt8} {folder : Folder κ} (hfolder : w.folder? name = some folder)
      (contents : κ) : Happens euid toml site layout members w
      (w.setChild name (some (.folder { folder with contents := contents })))
  | elsewhere {w' : World κ}
      (hdocuments : ∀ member ∈ members,
        w'.documents (.ownership member.id) = w.documents (.ownership member.id))
      (hchildren : ∀ member ∈ members, ∀ name, member.Owns name →
        w'.children name = w.children name) :
      Happens euid toml site layout members w w'

/-- The creation of another workspace leaves the names of this one as they are. -/
theorem Extended.unowned {member other : Member site}
    (h : Extended toml other.leaf other.id w w') (hdistinct : member.Distinct other)
    {name : List UInt8} (hname : member.Owns name) : w'.children name = w.children name := by
  cases hchild : w.children name with
  | some child => exact h.children name child hchild
  | none =>
    by_contra hsome
    rcases h.named name hchild hsome with rfl | ⟨kind, rfl⟩ | ⟨uuid, rfl⟩
    · exact hdistinct.owns _ hname (.inl rfl)
    · exact hdistinct.owns _ hname (.inr (kind.name_mem other.id))
    · rcases hname with hleaf | hsibling
      · exact member.apart uuid hleaf.symm
      · exact temporaryName_not_mem uuid member.id hsibling

/-- In a legal state the workspace has its ownership document. -/
theorem Legal.documented {leaf : FileName} {id : WorkspaceId}
    (h : Legal toml site leaf id record w) :
    ∃ bytes, w.documents (.ownership id) = some bytes := by
  obtain ⟨ownership, ⟨-, bytes, hbytes, -⟩, -⟩ := h.kept
  exact ⟨bytes, hbytes⟩

/-- What happens to any member leaves a legal state of each: its own events as `legal_occurs` says,
and those of others because they are distinct. -/
theorem legal_happens {members : List (Member site)} {member : Member site}
    (hmember : member ∈ members)
    (hdistinct : ∀ other ∈ members, other ≠ member → member.Distinct other)
    (hmade : Registrable toml site member.leaf member.id record)
    (h : Legal toml site member.leaf member.id record w)
    (hhappens : Happens euid toml site layout members w w') :
    Legal toml site member.leaf member.id record w' := by
  cases hhappens with
  | @prepare other _ hother run =>
    obtain ⟨bytes, hbytes⟩ := h.documented
    by_cases hsame : other = member
    · subst hsame
      have hrefused : Safe (faulty euid site) _ _
          (prepareWorkspace euid toml layout other.id (site.path other.leaf)) w :=
        safe_prepareWorkspace_refused fun hvacant => by
          rw [hvacant.2.undocumented] at hbytes
          cases hbytes
      rw [eq_of_visits hrefused run]
      exact h
    · have hextended := extended_of_visits run
      refine h.congr ((hextended.documents _ bytes hbytes).trans hbytes.symm) fun name hname => ?_
      exact hextended.unowned (hdistinct other hother hsame) hname
  | @remove other _ hother run =>
    by_cases hsame : other = member
    · subst hsame
      exact legal_occurs other.target hmade h (.remove run)
    · have hkept := othersKept_of_visits other.target run
      have hapart := hdistinct other hother hsame
      refine h.congr (hkept.documents _ ?_ fun _ => nofun) fun name hname => ?_
      · exact fun he => hapart.id (DocumentName.ownership.inj he)
      · exact hkept.children name (fun he => hapart.owns name hname (.inl he))
          fun hsibling => hapart.owns name hname (.inr hsibling)
  | @inspect other _ hother run =>
    rw [eq_of_visits (faulty_inspectRemovalContainer other.target w) run]
    exact h
  | @cleared other hother kind =>
    by_cases hsame : other = member
    · subst hsame
      exact h.removeOperation hmade.unreserved kind
    · refine h.congr rfl fun name hname => World.children_setChild_of_ne w _ ?_
      rintro rfl
      exact (hdistinct other hother hsame).owns _ hname (.inr (kind.name_mem other.id))
  | contents hfolder contents => exact h.setContents hfolder contents
  | elsewhere hdocuments hchildren =>
    exact h.congr (hdocuments member hmember) (hchildren member hmember)

/-- What a creation from the world returns is legal in every history after it. -/
def CreationLasts (euid : UInt32) (toml : TomlLibrary) (site : Site κ) (layout : Layout)
    (members : List (Member site)) (member : Member site) (w : World κ) : Prop :=
  ∀ prepared w₁, Returns (faulty euid site)
    (prepareWorkspace euid toml layout member.id (site.path member.leaf)) w (.ok prepared) w₁ →
      ∀ w₂, Relation.ReflTransGen (Happens euid toml site layout members) w₁ w₂ →
        Legal toml site member.leaf member.id prepared.ownership w₂

/-- **No history of a directory breaks a workspace.**  From the moment a creation has returned,
whatever is created, inspected or removed in the directory, in any order and with failures
anywhere, the ownership on disk is the one the creation returned, or that with the path of the
isolation, the target is never at both its places, where it is isolated the ownership says so, and
no operation directory outlives it. -/
theorem installation_stays_legal {members : List (Member site)} {member : Member site}
    (hmember : member ∈ members)
    (hdistinct : ∀ other ∈ members, other ≠ member → member.Distinct other)
    (hreads : ∀ record : WorkspaceOwnership,
      toml.ReadsBack (Linux.ownershipDocument record).toTable)
    (hisolated : w.children (isolated member.id).bytes = none) :
    CreationLasts euid toml site layout members member w := by
  intro prepared w₁ run w₂ hhistory
  have hconcluded : Concluded toml site member.leaf member.id layout false w (.ok prepared) w₁ :=
    Safe.of_returns (faulty_prepareWorkspace w) run
  have hmade := hconcluded.registrable hreads
  induction hhistory with
  | refl => exact (hconcluded.begun hisolated).legal
  | tail _ hhappens ih => exact legal_happens hmember hdistinct hmade ih hhappens

/-! ### Two workspaces at `/t` and `/u`

Two members of one directory with different names and identifiers.  The first stays legal in
every history of both. -/

/-- The workspace at `/t`, the first member of the sample. -/
def sampleMember : Member sampleSite :=
  ⟨sampleLeaf, sampleReservation, sampleTarget, sampleLeaf_apart⟩

/-- The letter `u` is a proper file name. -/
theorem otherLeaf_normal : AbsolutePath.Normal [117] := ⟨by decide, by decide, by decide⟩

/-- The reservation of another workspace, beside the first. -/
def otherReservation : WorkspaceReservation :=
  { sampleReservation with workspaceId := ⟨sampleUuid 4⟩, targetPath := samplePath 20 }

/-- Its target is the entry `u` of the site. -/
theorem otherTarget : otherReservation.targetPath = sampleSite.path ⟨[117], otherLeaf_normal⟩ :=
  AbsolutePath.asBytes_injective (by decide +kernel)

/-- That target does not have a staging name. -/
theorem otherLeaf_apart (uuid : UuidV7) : [(117 : UInt8)] ≠ temporaryName uuid := by
  intro he
  have hlong := temporaryName_length uuid
  rw [← he] at hlong
  simp at hlong

/-- The workspace at `/u`, the second member of the sample. -/
def otherMember : Member sampleSite :=
  ⟨⟨[117], otherLeaf_normal⟩, otherReservation, otherTarget, otherLeaf_apart⟩

/-- The two members share neither a name nor an identifier. -/
theorem sampleMember_distinct : sampleMember.Distinct otherMember where
  id := by decide
  owns name hmine hother := by
    have hids : sampleMember.id ≠ otherMember.id := by decide
    rcases hmine with rfl | hmine
    · rcases hother with he | hother
      · exact absurd he (by decide)
      · exact absurd hother (by decide +kernel)
    · rcases hother with rfl | hother
      · exact absurd hmine (by decide +kernel)
      · exact hids (Application.siblingName_unique hmine hother)

/-- The workspace at `/t` in an empty directory that is also that of the other: the workspace stays
legal whatever happens to the two. -/
theorem installation_stays_legal_sample : CreationLasts 1000 sampleToml sampleSite sampleLayout
    [sampleMember, otherMember] sampleMember sampleVacant := by
  refine installation_stays_legal List.mem_cons_self (fun other hother hne => ?_)
    sampleToml_readsBack rfl
  rcases List.mem_cons.mp hother with rfl | hother
  · exact absurd rfl hne
  · obtain rfl := List.mem_singleton.mp hother
    exact sampleMember_distinct

end Lifecycle
end ThinWorkspace
