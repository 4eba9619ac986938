/-
# From the creation to the removal

Source: `prepare_workspace` and `remove_workspace` in
`crates/thinws-adapter-linux/src/workspace.rs`.

What a creation that succeeds has made is what removals start from (`Concluded.begun`).  A
creation is refused where anything of the workspace is there, and then it changes nothing
(`prepareWorkspace_refused`); else, in a quiet world, it ends with the three directories and their
ownership (`prepareWorkspace_completes`).  A removal after it leaves the directory as it was before
the creation, but the ownership stays, and with it the identifier is spent
(`prepare_remove_restores`).
-/

import ThinWorkspace.Lifecycle.Begin

namespace ThinWorkspace
namespace Lifecycle

open ThinWorkspace.Core Lib Ports
open Linux (WorkspaceOwnership HistoricalDirectoryIdentity encodeWorkspaceOwnership documentError
  containsPath)
open Program (Achieves Issues Returns Safe Visits)

variable {κ : Type} {euid : UInt32} {toml : TomlLibrary} {site : Site κ} {leaf : FileName}
  {id : WorkspaceId} {layout : Layout} {w : World κ} {calm : Bool}

/-! ### What a success has made

What a creation has made is what a removal starts from. -/

/-- What is neither created nor staged is as it was. -/
theorem Erected.others {w' : World κ} {root staging trash : TargetDirectory}
    (h : Erected site leaf id calm w w' root staging trash) {name : List UInt8}
    (hleaf : name ≠ leaf.bytes) (hkind : ∀ kind : OperationKind, name ≠ (kind.name id).bytes)
    (hstaged : ∀ uuid, name ≠ temporaryName uuid) : w'.children name = w.children name := by
  obtain ⟨w₁, w₂, hroot, hstaging, htrash⟩ := h.created
  rw [htrash.others (hkind .trash) hstaged, hstaging.others (hkind .staging) hstaged,
    hroot.others hleaf hstaged]

/-- The name of the isolated target is no staging name. -/
theorem isolated_ne_temporaryName (id : WorkspaceId) (uuid : UuidV7) :
    (isolated id).bytes ≠ temporaryName uuid := fun he =>
  temporaryName_not_mem uuid id (he ▸ isolatedName_mem id)

/-- What a creation has made is what a workspace begins as. -/
theorem Concluded.begun {prepared : PreparedWorkspace} {w' : World κ}
    (h : Concluded toml site leaf id layout calm w (.ok prepared) w')
    (hisolated : w.children (isolated id).bytes = none) :
    Begun toml site leaf id prepared.ownership w' := by
  obtain ⟨hunreserved, w₁, bytes, herected, -, rfl, hconsistent, hdocumented⟩ := h
  refine ⟨hdocumented, hconsistent.stood.target, hconsistent.stood.operation, ?_⟩
  refine (herected.others (fun he => hunreserved.leaf_ne he.symm) (fun kind he => ?_)
    (isolated_ne_temporaryName id)).trans hisolated
  exact kind.name_ne_isolated id he.symm

/-- The isolation of a workspace that was created can be registered. -/
theorem Concluded.registrable {prepared : PreparedWorkspace} {w' : World κ}
    (h : Concluded toml site leaf id layout calm w (.ok prepared) w')
    (hreads : ∀ record : WorkspaceOwnership,
      toml.ReadsBack (Linux.ownershipDocument record).toTable) :
    Registrable toml site leaf id prepared.ownership := by
  obtain ⟨hunreserved, w₁, bytes, -, -, -, hconsistent, hdocumented⟩ := h
  obtain ⟨volumeId, mountId, hownership, -⟩ := hconsistent.ownership
  refine ⟨hunreserved, hdocumented.1, ?_, hdocumented.valid, ?_, hreads _⟩
  · rw [hownership]
    rfl
  · rw [hownership]
    rfl

/-! ### Where a creation is refused

Anything in the way is found before the first write: an overlap with the control root, a
reserved name, an entry, or a document. -/

/-- The error for a name that is taken. -/
def occupied : PortError := .new .notEmpty "Workspace target is occupied"

/-- The error for an identifier that has an ownership. -/
def alreadyOwned : PortError :=
  .conflict "Workspace ownership proof already exists" .workspaceId

/-- In a quiet world one name that is taken fails the check of all. -/
theorem safe_requireAbsent_taken {names : List (List UInt8)}
    (h : ∃ name ∈ names, w.children name ≠ none) :
    Safe (quiet euid site) (fun c _ => c.Reads) (fun outcome _ => outcome = .error occupied)
      (names.forM requireAbsentChild) w := by
  induction names with
  | nil =>
    obtain ⟨name, hname, -⟩ := h
    cases hname
  | cons name names ih =>
    by_cases hname : w.children name = none
    · have hrest : ∃ other ∈ names, w.children other ≠ none := by
        obtain ⟨other, hother, hsome⟩ := h
        refine ⟨other, (List.mem_cons.mp hother).resolve_left ?_, hsome⟩
        rintro rfl
        exact hsome hname
      exact Finds.thenSafe (finds_requireAbsentChild fun _ => hname) (fun _ _ => ih hrest)
        fun _ _ h => nomatch h
    · obtain ⟨child, hchild⟩ := Option.ne_none_iff_exists'.mp hname
      refine Program.safe_perform_bind.mpr ⟨trivial, fun r w' hstep => ?_⟩
      obtain rfl := step_reads euid site (c := .statat name) trivial hstep
      cases r with
      | ok stat => rfl
      | error e =>
        exact absurd ⟨child.stat, w', ⟨rfl, child, hchild, child.shows_stat⟩, trivial⟩
          (hstep.2.2 rfl).2.1

/-- Where something is there already the check refuses, with an error that tells a document from an
entry. -/
theorem safe_requireVacant_taken (h : ¬Vacant leaf id w) :
    Safe (quiet euid site) (fun c _ => c.Reads) (fun outcome _ => outcome =
      .error (if w.documents (.ownership id) = none then occupied else alreadyOwned))
      (requireVacant id leaf.bytes) w := by
  refine Finds.thenSafe (finds_callOr trivial fun _ => ⟨true, w, rfl, rfl⟩) (fun same hsame => ?_)
    fun _ _ h => nomatch h
  refine Finds.thenSafe (finds_ensure hsame.2) (fun _ _ => ?_)
    fun _ _ h => nomatch h
  refine Finds.thenSafe (finds_callOr trivial fun _ => ⟨_, w, ⟨rfl, rfl⟩, trivial⟩)
    (fun found hfound => ?_) fun _ _ h => nomatch h
  have hread : found.isNone = true ↔ w.documents (.ownership id) = none := by
    rw [hfound.1.2, Option.isNone_iff_eq_none, Option.map_eq_none_iff]
  by_cases hnone : w.documents (.ownership id) = none
  · rw [if_pos hnone]
    refine Finds.thenSafe (finds_ensure fun _ => hread.mpr hnone) (fun _ _ => ?_)
      fun _ _ h => nomatch h
    refine safe_requireAbsent_taken ?_
    by_contra hall
    have habsent : ∀ name ∈ [leaf.bytes, Application.stagingName id, Application.trashName id],
        w.children name = none := fun name hname => by
      by_contra hsome
      exact hall ⟨name, hname, hsome⟩
    refine h ⟨hnone, habsent _ List.mem_cons_self, fun kind => ?_⟩
    cases kind
    · exact habsent _ (List.mem_cons_of_mem _ List.mem_cons_self)
    · exact habsent _ (List.mem_cons_of_mem _ (List.mem_cons_of_mem _ List.mem_cons_self))
  · rw [if_neg hnone, ensure, if_neg (fun hisNone => hnone (hread.mp hisNone))]
    rfl

/-- The target does not overlap the control root and has none of the reserved names. -/
structure Separate (site : Site κ) (leaf : FileName) (id : WorkspaceId) (layout : Layout) :
    Prop where
  unreserved : Unreserved leaf id
  above : containsPath (site.path leaf).asBytes layout.dataRoot.asBytes = false
  below : containsPath layout.dataRoot.asBytes (site.path leaf).asBytes = false

/-- Where anything is in the way a creation only reads, and it fails. -/
theorem safe_prepareWorkspace_refused (h : ¬(Separate site leaf id layout ∧ Vacant leaf id w)) :
    Safe (faulty euid site) (fun c _ => c.Reads) (fun outcome _ =>
      ∀ prepared, outcome ≠ .ok prepared)
      (prepareWorkspace euid toml layout id (site.path leaf)) w := by
  refine Finds.thenSafe (finds_admitTarget nofun) (fun admission hadmitted => ?_)
    fun _ _ _ _ => nofun
  rw [hadmitted.name]
  refine Finds.thenSafe (finds_requireVacant nofun) (fun _ hvacant => ?_) fun _ _ _ _ => nofun
  exact absurd ⟨⟨hadmitted.unreserved, hadmitted.above, hadmitted.below⟩, hvacant⟩ h

/-- **A creation is refused where anything is in the way.**  Where the target overlaps the control
root or has a reserved name, or there is an ownership or anything under one of the names, no run
changes anything and none succeeds.  In a quiet world in which the target could be created, the
error says which: an ownership, or a name that is taken. -/
theorem prepareWorkspace_refused (h : ¬(Separate site leaf id layout ∧ Vacant leaf id w)) :
    (∀ w', Visits (faulty euid site) (prepareWorkspace euid toml layout id (site.path leaf)) w w' →
      w' = w) ∧
    (∀ prepared w', ¬Returns (faulty euid site)
      (prepareWorkspace euid toml layout id (site.path leaf)) w (.ok prepared) w') ∧
    (Admissible site leaf id layout → ∀ outcome w', Returns (quiet euid site)
      (prepareWorkspace euid toml layout id (site.path leaf)) w outcome w' → outcome =
        .error (if w.documents (.ownership id) = none then occupied else alreadyOwned)) := by
  have hfaulty : Safe (faulty euid site) _ _
      (prepareWorkspace euid toml layout id (site.path leaf)) w := safe_prepareWorkspace_refused h
  refine ⟨fun w' run => ?_, fun prepared w' run => ?_, fun hadmissible outcome w' run => ?_⟩
  · exact eq_of_visits hfaulty run
  · exact Safe.of_returns hfaulty run prepared rfl
  · have htaken : ¬Vacant leaf id w := fun hvacant =>
      h ⟨⟨hadmissible.unreserved, hadmissible.above, hadmissible.below⟩, hvacant⟩
    have hquiet : Safe (quiet euid site) (fun c _ => c.Reads) (fun outcome _ => outcome =
        .error (if w.documents (.ownership id) = none then occupied else alreadyOwned))
        (prepareWorkspace euid toml layout id (site.path leaf)) w := by
      refine Finds.thenSafe (finds_admitTarget fun _ => hadmissible)
        (fun admission hadmitted => ?_) fun _ _ h => nomatch h
      rw [hadmitted.name]
      refine Safe.bind (safe_requireVacant_taken htaken) (fun _ _ hok => ?_) fun _ _ he => ?_
      · cases hok
      · exact congrArg Except.error (Except.error.inj he)
    exact Safe.of_returns hquiet run

/-! ### A quiet world

In a quiet world with nothing in the way a creation comes to its end, and a removal behind
it leaves the entries as they were before both.  The ownership document stays, so the
identifier cannot be used again. -/

/-- The world with the three directories, all of them fresh. -/
def built (site : Site κ) (leaf : FileName) (id : WorkspaceId) (w : World κ)
    (target staging trash : HistoricalDirectoryIdentity) : World κ :=
  ((w.setChild leaf.bytes (some (.folder (fresh site target)))).setChild
    (OperationKind.name id .staging).bytes (some (.folder (fresh site staging)))).setChild
    (OperationKind.name id .trash).bytes (some (.folder (fresh site trash)))

/-- In a quiet world the three directories are all that a creation adds. -/
theorem Erected.built {w' : World κ} {root staging trash : TargetDirectory}
    (h : Erected site leaf id true w w' root staging trash) :
    w' = built site leaf id w root.identity staging.identity trash.identity := by
  obtain ⟨w₁, w₂, hroot, hstaging, htrash⟩ := h.created
  rw [htrash.exact, hstaging.exact, hroot.exact]
  rfl

/-- **A creation comes to its end.**  In a quiet world in which nothing is in the way every run
creates the three directories and nothing else; it succeeds with the ownership that describes them
exactly if that can be printed, and otherwise it fails for that. -/
theorem prepareWorkspace_completes (hcan : Preparable toml site leaf id layout w) :
    (∀ outcome w', Returns (quiet euid site)
      (prepareWorkspace euid toml layout id (site.path leaf)) w outcome w' →
        ∃ target staging trash record, record = ownershipOf site leaf id layout site.volumeId
            site.mountId target staging trash ∧
          ((∃ bytes prepared, encodeWorkspaceOwnership toml record = .ok bytes ∧
              outcome = .ok prepared ∧ prepared.ownership = record ∧
              w' = (built site leaf id w target staging trash).setDocument (.ownership id)
                (some bytes)) ∨
            ∃ error, encodeWorkspaceOwnership toml record = .error error ∧
              outcome = .error (documentError error) ∧
              w' = built site leaf id w target staging trash)) ∧
    ∃ outcome w', Returns (quiet euid site)
      (prepareWorkspace euid toml layout id (site.path leaf)) w outcome w' := by
  have hsafe : Safe (quiet euid site) _ (Concluded toml site leaf id layout true w)
      (prepareWorkspace euid toml layout id (site.path leaf)) w :=
    safe_prepareWorkspace fun _ => hcan
  refine ⟨fun outcome w' run => ?_,
    Safe.exists_returns (fun c s _ => quiet_live euid site c s) hsafe⟩
  have hconcluded := Safe.of_returns hsafe run
  cases outcome with
  | ok prepared =>
    obtain ⟨-, w₁, bytes, herected, hencoded, rfl, hconsistent, -⟩ := hconcluded
    obtain ⟨volumeId, mountId, hownership, hmounted⟩ := hconsistent.ownership
    obtain ⟨rfl, rfl⟩ := hmounted rfl
    refine ⟨_, _, _, _, hownership, .inl ⟨bytes, prepared, hencoded, rfl, rfl, ?_⟩⟩
    rw [← herected.built]
  | error e =>
    obtain ⟨root, staging, trash, error, herected, hencoded, rfl⟩ := hconcluded rfl
    exact ⟨_, _, _, _, rfl, .inr ⟨error, hencoded, rfl, herected.built⟩⟩

/-- A removal that succeeds after a creation leaves the entries as they were before it, and an
ownership with which no further creation changes anything or succeeds. -/
def RemovalUndoes (euid : UInt32) (toml : TomlLibrary) (site : Site κ) (leaf : FileName)
    (layout layout' : Layout) (reservation : WorkspaceReservation) (w : World κ) : Prop :=
  ∀ prepared w₁, Returns (quiet euid site)
    (prepareWorkspace euid toml layout reservation.workspaceId (site.path leaf)) w
    (.ok prepared) w₁ → ∀ removal w₂, Returns (faulty euid site)
      (removeWorkspace euid toml layout' reservation) w₁ (.ok removal) w₂ →
    w₂.children = w.children ∧ w₂.documents (.ownership reservation.workspaceId) ≠ none ∧
    ∀ w₃, Visits (faulty euid site)
        (prepareWorkspace euid toml layout reservation.workspaceId (site.path leaf)) w₂ w₃ →
      w₃ = w₂ ∧ ∀ again, ¬Returns (faulty euid site)
        (prepareWorkspace euid toml layout reservation.workspaceId (site.path leaf)) w₂
        (.ok again) w₃

/-- **A removal undoes a creation, and the identifier is spent.**  Where a creation in a quiet world
has succeeded, any removal after it that succeeds leaves every entry as it was before the creation.
The ownership stays, so that no further creation with the identifier succeeds, and each one
changes nothing. -/
theorem prepare_remove_restores {layout' : Layout} {reservation : WorkspaceReservation}
    (htarget : reservation.targetPath = site.path leaf)
    (hcan : Preparable toml site leaf reservation.workspaceId layout w)
    (hisolated : w.children (isolated reservation.workspaceId).bytes = none) :
    RemovalUndoes euid toml site leaf layout layout' reservation w := by
  intro prepared w₁ hprepared removal w₂ hremoved
  have hsafe : Safe (quiet euid site) _
      (Concluded toml site leaf reservation.workspaceId layout true w)
      (prepareWorkspace euid toml layout reservation.workspaceId (site.path leaf)) w :=
    safe_prepareWorkspace fun _ => hcan
  obtain ⟨hunreserved, w', bytes, herected, -, rfl, -, -⟩ := Safe.of_returns hsafe hprepared
  obtain ⟨ownership, -, hgone⟩ := Safe.of_returns (faulty_removeWorkspace htarget _) hremoved
  have hdocument : w₂.documents (.ownership reservation.workspaceId) ≠ none := by
    rcases hgone.documented with ⟨-, stored, hstored, -⟩ | ⟨-, stored, hstored, -⟩
    · rw [hstored]
      exact Option.some_ne_none stored
    · rw [hstored]
      exact Option.some_ne_none stored
  refine ⟨funext fun name => ?_, hdocument, fun w₃ run => ?_⟩
  · by_cases hmine : name = leaf.bytes ∨ name ∈ Application.siblingNames reservation.workspaceId
    · rw [hgone.gone name hmine]
      rcases hmine with rfl | hsibling
      · exact hcan.plottable.vacant.target.symm
      · rcases mem_siblingNames_iff.mp hsibling with ⟨kind, rfl⟩ | rfl
        · exact (hcan.plottable.vacant.operation kind).symm
        · exact hisolated.symm
    · obtain ⟨hleaf, hsibling⟩ := not_or.mp hmine
      have hkind : ∀ kind : OperationKind,
          name ≠ (kind.name reservation.workspaceId).bytes := fun kind he =>
        hsibling (he ▸ kind.name_mem _)
      rw [hgone.kept name hleaf hsibling, World.children_setDocument, herected.built]
      refine (World.children_setChild_of_ne _ _ (hkind .trash)).trans ?_
      refine (World.children_setChild_of_ne _ _ (hkind .staging)).trans ?_
      exact World.children_setChild_of_ne _ _ hleaf
  · have hrefused : Safe (faulty euid site) _ _
        (prepareWorkspace euid toml layout reservation.workspaceId (site.path leaf)) w₂ :=
      safe_prepareWorkspace_refused fun h => hdocument h.2.undocumented
    exact ⟨eq_of_visits hrefused run, fun again hagain => Safe.of_returns hrefused hagain again rfl⟩

/-! ### An empty directory

An empty directory, in which a workspace is created, refused a second time, and removed. -/

/-- Nothing is there: no entry and no document. -/
def sampleVacant : World Bool := ⟨fun _ => none, fun _ => none⟩

/-- The sample target is admissible: it is apart from the control root and has no reserved name. -/
theorem sampleAdmissible : Admissible sampleSite sampleLeaf sampleReservation.workspaceId
    sampleLayout where
  unreserved := sampleRegistrable.unreserved
  above := by decide +kernel
  below := by decide +kernel
  ancestors := List.not_mem_nil
  parent := by decide
  writable := rfl

/-- The sample target does not have a staging name. -/
theorem sampleLeaf_apart (uuid : UuidV7) : sampleLeaf.bytes ≠ temporaryName uuid := by
  intro he
  have hlong := temporaryName_length uuid
  rw [← he] at hlong
  simp [sampleLeaf] at hlong

/-- In the sample world nothing is in the way of a creation. -/
theorem samplePreparable : Preparable sampleToml sampleSite sampleLeaf
    sampleReservation.workspaceId sampleLayout sampleVacant where
  admissible := sampleAdmissible
  plottable := ⟨sampleRegistrable.unreserved, ⟨rfl, rfl, fun _ => rfl⟩, sampleLeaf_apart,
    sampleUuid 0, rfl⟩
  stageable := ⟨sampleUuid 0, rfl⟩
  readsBack := sampleToml_readsBack
  parent := sampleIdentity_valid _ (by decide)
  mounted := by decide

/-- A creation where the workspace is already there: no run of it changes anything or succeeds, and
the error is that of an existing ownership. -/
theorem prepareWorkspace_refused_sample :
    (∀ w', Visits (faulty 1000 sampleSite) (prepareWorkspace 1000 sampleToml sampleLayout
      sampleReservation.workspaceId (sampleSite.path sampleLeaf)) sampleWorld w' →
        w' = sampleWorld) ∧
    (∀ prepared w', ¬Returns (faulty 1000 sampleSite) (prepareWorkspace 1000 sampleToml
      sampleLayout sampleReservation.workspaceId (sampleSite.path sampleLeaf)) sampleWorld
      (.ok prepared) w') ∧
    (Admissible sampleSite sampleLeaf sampleReservation.workspaceId sampleLayout →
      ∀ outcome w', Returns (quiet 1000 sampleSite) (prepareWorkspace 1000 sampleToml sampleLayout
        sampleReservation.workspaceId (sampleSite.path sampleLeaf)) sampleWorld outcome w' →
        outcome = .error (if sampleWorld.documents (.ownership sampleReservation.workspaceId) =
          none then occupied else alreadyOwned)) :=
  prepareWorkspace_refused fun h => by
    obtain ⟨-, bytes, hbytes, -⟩ := sampleBegun.documented
    rw [h.2.undocumented] at hbytes
    cases hbytes

/-- A creation in the empty directory: in a quiet world it ends with the three directories, and
with the ownership if that can be printed. -/
theorem prepareWorkspace_completes_sample :
    (∀ outcome w', Returns (quiet 1000 sampleSite) (prepareWorkspace 1000 sampleToml sampleLayout
      sampleReservation.workspaceId (sampleSite.path sampleLeaf)) sampleVacant outcome w' →
        ∃ target staging trash record, record = ownershipOf sampleSite sampleLeaf
            sampleReservation.workspaceId sampleLayout sampleSite.volumeId sampleSite.mountId
            target staging trash ∧
          ((∃ bytes prepared, encodeWorkspaceOwnership sampleToml record = .ok bytes ∧
              outcome = .ok prepared ∧ prepared.ownership = record ∧
              w' = (built sampleSite sampleLeaf sampleReservation.workspaceId sampleVacant target
                staging trash).setDocument (.ownership sampleReservation.workspaceId)
                (some bytes)) ∨
            ∃ error, encodeWorkspaceOwnership sampleToml record = .error error ∧
              outcome = .error (documentError error) ∧
              w' = built sampleSite sampleLeaf sampleReservation.workspaceId sampleVacant target
                staging trash)) ∧
    ∃ outcome w', Returns (quiet 1000 sampleSite) (prepareWorkspace 1000 sampleToml sampleLayout
      sampleReservation.workspaceId (sampleSite.path sampleLeaf)) sampleVacant outcome w' :=
  prepareWorkspace_completes samplePreparable

/-- A creation in the empty directory and a removal behind it, which together leave every entry as
it was. -/
theorem prepare_remove_restores_sample : RemovalUndoes 1000 sampleToml sampleSite sampleLeaf
    sampleLayout sampleLayout sampleReservation sampleVacant :=
  prepare_remove_restores sampleTarget samplePreparable rfl

end Lifecycle
end ThinWorkspace
