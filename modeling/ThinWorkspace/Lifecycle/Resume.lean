/-
# A removal that was stopped is finished by the next

Source: `remove_workspace` and `inspect_removal_container` in
`crates/thinws-adapter-linux/src/workspace.rs`.

The results about removals.  In any world whatever, a removal makes only permitted calls
(`removeWorkspace_permitted`), changes no entry but those of the workspace, and reports success
only where all of them are gone (`removeWorkspace_honest`).  From the creation on no history breaks
what `Legal` says (`legal_of_history`), an inspection tells where the target is
(`inspectRemovalContainer_right`), a removal of a target that is gone does nothing
(`removeWorkspace_gone`), and one in a quiet world comes to its end, wherever the removals before
it were stopped (`removeWorkspace_completes`).
-/

import ThinWorkspace.Lifecycle.Answer
import ThinWorkspace.Lifecycle.History

namespace ThinWorkspace
namespace Lifecycle

open ThinWorkspace.Core Lib Ports
open Linux (WorkspaceOwnership encodeWorkspaceOwnership)
open Program (Achieves Issues Returns Safe Visits)

variable {κ : Type} {euid : UInt32} {toml : TomlLibrary} {site : Site κ} {leaf : FileName}
  {layout : Layout} {reservation : WorkspaceReservation} {record : WorkspaceOwnership}

/-! ### Any world

From the rule of a removal, what holds of every run however far it gets: each call is
permitted where it is made, and what does not belong to the workspace stays as it was. -/

/-- Every call of a run from the world, however far it gets, is made where it is permitted. -/
def OnlyPermitted (euid : UInt32) (toml : TomlLibrary) (site : Site κ) (leaf : FileName)
    (id : WorkspaceId) (x : Handling WorkspaceRemoval) (w : World κ) : Prop :=
  ∀ c w', Issues (faulty euid site) x w c w' → permitted site leaf id toml c w'

/-- **A removal touches nothing that it may not.**  In any world, in any run however far it gets,
a call is made only where it is permitted: the target is moved only where the ownership on disk
registers where to and both operation directories are gone, and a directory is emptied or removed
only if it is the one that the ownership names, by its identity, and its turn has come. -/
theorem removeWorkspace_permitted (htarget : reservation.targetPath = site.path leaf)
    (w : World κ) : OnlyPermitted euid toml site leaf reservation.workspaceId
      (removeWorkspace euid toml layout reservation) w :=
  fun _ _ run => Safe.of_issues (faulty_removeWorkspace htarget w) run

/-- What does not belong to the workspace is as it was. -/
structure OthersKept (leaf : FileName) (id : WorkspaceId) (w w' : World κ) : Prop where
  children : ∀ name, name ≠ leaf.bytes → name ∉ Application.siblingNames id →
    w'.children name = w.children name
  documents : ∀ name, name ≠ .ownership id → (∀ uuid, name ≠ .staged updateStem uuid) →
    w'.documents name = w.documents name

/-- No change at all keeps what is not the workspace's. -/
theorem OthersKept.refl {id : WorkspaceId} (w : World κ) : OthersKept leaf id w w :=
  ⟨fun _ _ _ => rfl, fun _ _ _ => rfl⟩

/-- Two changes that keep the rest, one after the other, keep it. -/
theorem OthersKept.trans {id : WorkspaceId} {w w' w'' : World κ} (h : OthersKept leaf id w w')
    (h' : OthersKept leaf id w' w'') : OthersKept leaf id w w'' where
  children name hleaf hsibling :=
    (h'.children name hleaf hsibling).trans (h.children name hleaf hsibling)
  documents name hown hstaged :=
    (h'.documents name hown hstaged).trans (h.documents name hown hstaged)

/-- Changing an entry under one of the workspace's own names keeps every other entry and every
document. -/
theorem othersKept_setChild {id : WorkspaceId} {w : World κ} {name : List UInt8}
    (hname : name = leaf.bytes ∨ name ∈ Application.siblingNames id)
    (child : Option (Child κ)) : OthersKept leaf id w (w.setChild name child) where
  children other hleaf hsibling := World.children_setChild_of_ne w child (by
    rintro rfl
    exact hname.elim hleaf hsibling)
  documents _ _ _ := rfl

/-- Changing the workspace's ownership document, or a staged one, keeps every entry and every other
document. -/
theorem othersKept_setDocument {id : WorkspaceId} {w : World κ} {name : DocumentName}
    (hname : name = .ownership id ∨ ∃ uuid, name = .staged updateStem uuid)
    (bytes : Option (List UInt8)) : OthersKept leaf id w (w.setDocument name bytes) where
  children _ _ _ := rfl
  documents other hown hstaged := World.documents_setDocument_of_ne w bytes (by
    rintro rfl
    obtain hname | ⟨uuid, hname⟩ := hname
    · exact hown hname
    · exact hstaged uuid hname)

/-- The name of a directory that is to be removed is one of the workspace. -/
theorem Doomed.mem {id : WorkspaceId} {w : World κ} {ownership : WorkspaceOwnership}
    {name : FileName} (h : Doomed site leaf id w ownership name) :
    name.bytes = leaf.bytes ∨ name.bytes ∈ Application.siblingNames id := by
  rcases h.cases with ⟨kind, rfl⟩ | ⟨rfl, -⟩
  · exact .inr (kind.name_mem id)
  · exact .inr (isolatedName_mem id)

/-- A permitted call that writes changes nothing that is not the workspace's.  There is one case
for each call that writes, and its guard names what it writes to. -/
theorem othersKept_effect {id : WorkspaceId} {w w' : World κ} {c : LifecycleCall}
    (hguard : permitted site leaf id toml c w) (hwrites : ¬c.Reads) {value : c.Value}
    (heffect : c.effect euid site w value w') : OthersKept leaf id w w' := by
  cases c
  case stageDocument =>
    obtain ⟨uuid, rfl, -, rfl⟩ := heffect
    obtain rfl : _ = updateStem := hguard
    exact othersKept_setDocument (.inr ⟨uuid, rfl⟩) _
  case publishDocument => exact hguard.elim
  case exchangeDocument =>
    obtain ⟨rfl, -, uuid, -, rfl, -⟩ := hguard
    obtain ⟨a, b, -, -, rfl⟩ := heffect
    exact (othersKept_setDocument (.inr ⟨uuid, rfl⟩) _).trans (othersKept_setDocument (.inl rfl) _)
  case removeDocument =>
    obtain ⟨-, rfl⟩ := heffect
    exact othersKept_setDocument (.inr hguard) _
  case dropDocument =>
    rcases heffect with rfl | rfl
    · exact .refl _
    · exact othersKept_setDocument (.inr hguard) _
  case mkdir => exact hguard.elim
  case renameNoreplace =>
    obtain ⟨rfl, rfl, -⟩ := hguard
    obtain ⟨-, child, -, rfl⟩ := heffect
    exact (othersKept_setChild (.inl rfl) _).trans
      (othersKept_setChild (.inr (isolatedName_mem id)) _)
  case rmdir =>
    obtain ⟨ownership, entry, -, hdoomed, rfl⟩ := hguard
    obtain ⟨-, rfl⟩ := heffect
    exact othersKept_setChild hdoomed.mem _
  case removeContents =>
    obtain ⟨ownership, entry, folder, -, hdoomed, hstands⟩ := hguard
    obtain ⟨name, folder', hstands', -, rfl⟩ := heffect
    obtain ⟨rfl, rfl⟩ := hstands.unique hstands'
    exact othersKept_setChild hdoomed.mem _
  all_goals exact absurd trivial hwrites

/-- A step of a removal, whether its call succeeds or fails, keeps what is not the workspace's.  A
call that fails has had no effect, its whole effect, or a part of it, and each of these is about
what its guard names. -/
theorem othersKept_step {id : WorkspaceId} {w w' : World κ} {c : LifecycleCall} {r : c.Result}
    (hguard : permitted site leaf id toml c w) (hstep : (faulty euid site).step w c r w') :
    OthersKept leaf id w w' := by
  by_cases hreads : c.Reads
  · rw [step_reads euid site hreads hstep]
    exact .refl w
  · cases r with
    | ok value => exact othersKept_effect hguard hreads hstep.1
    | error e =>
      obtain ⟨-, rfl | ⟨value, heffect⟩ | hpart, -⟩ := hstep
      · exact .refl _
      · exact othersKept_effect hguard hreads heffect
      · cases c
        case stageDocument =>
          obtain ⟨uuid, part, -, -, rfl⟩ := hpart
          obtain rfl : _ = updateStem := hguard
          exact othersKept_setDocument (.inr ⟨uuid, rfl⟩) _
        case publishDocument => exact hguard.elim
        case exchangeDocument =>
          obtain ⟨-, -, uuid, -, rfl, -⟩ := hguard
          obtain rfl := hpart
          exact othersKept_setDocument (.inr ⟨uuid, rfl⟩) _
        case removeContents =>
          obtain ⟨ownership, entry, folder, -, hdoomed, hstands⟩ := hguard
          obtain ⟨name, folder', contents, hstands', rfl⟩ := hpart
          obtain ⟨rfl, rfl⟩ := hstands.unique hstands'
          exact othersKept_setChild hdoomed.mem _
        all_goals exact hpart.elim

/-- **Every moment of a removal keeps the rest**: whatever a removal has visited differs from the
start only in what belongs to the workspace. -/
theorem othersKept_of_visits (htarget : reservation.targetPath = site.path leaf) {w w' : World κ}
    (run : Visits (faulty euid site) (removeWorkspace euid toml layout reservation) w w') :
    OthersKept leaf reservation.workspaceId w w' :=
  Safe.of_visits (fun s => OthersKept leaf reservation.workspaceId w s)
    (faulty_removeWorkspace htarget w) (.refl w)
    (fun _ _ _ _ hguard hkept hstep => hkept.trans (othersKept_step hguard hstep)) run

/-- **A removal is honest.**  In any world, wherever a run of it has got to, every entry that is
not the workspace's and every other document is as it was; and where it reports success, the
target, its isolated place and both operation directories are gone and the ownership is still
there. -/
theorem removeWorkspace_honest (htarget : reservation.targetPath = site.path leaf)
    (w : World κ) :
    (∀ w', Visits (faulty euid site) (removeWorkspace euid toml layout reservation) w w' →
      OthersKept leaf reservation.workspaceId w w') ∧
    ∀ removal w', Returns (faulty euid site) (removeWorkspace euid toml layout reservation) w
      (.ok removal) w' → ∃ ownership, Documented toml w reservation.workspaceId ownership ∧
        Removed toml site leaf reservation.workspaceId w w' ownership :=
  ⟨fun _ run => othersKept_of_visits htarget run,
    fun _ _ run => Safe.of_returns (faulty_removeWorkspace htarget w) run⟩

/-! ### From the creation on

A creation that returned leaves a legal state, and no event of a history breaks one. -/

/-- A workspace as `prepare_workspace` leaves it: the target and both operation directories are
there, with the identities that the ownership records. -/
structure Begun (toml : TomlLibrary) (site : Site κ) (leaf : FileName) (id : WorkspaceId)
    (record : WorkspaceOwnership) (w : World κ) : Prop where
  documented : Documented toml w id record
  target : Holds w leaf record.target
  operation : ∀ kind : OperationKind, ∃ folder, w.folder? (kind.name id).bytes = some folder ∧
    folder.identity = (kind.evidence record).identity ∧ folder.isPrivate = true
  isolated : w.children (isolated id).bytes = none

/-- A workspace as it was created is in a legal state. -/
theorem Begun.legal {id : WorkspaceId} {w : World κ} (h : Begun toml site leaf id record w) :
    Legal toml site leaf id record w where
  kept := ⟨record, h.documented, .inl rfl⟩
  operation kind := .inr (h.operation kind)
  target := .inl ⟨h.target, h.isolated⟩

/-- What no event breaks holds in every history from the creation on. -/
theorem Begun.stays_legal (htarget : reservation.targetPath = site.path leaf)
    (hmade : Registrable toml site leaf reservation.workspaceId record) {start w : World κ}
    (hstart : Begun toml site leaf reservation.workspaceId record start)
    (hhistory : Relation.ReflTransGen (Occurs euid toml site leaf layout reservation) start w) :
    Legal toml site leaf reservation.workspaceId record w := by
  induction hhistory with
  | refl => exact hstart.legal
  | tail _ hoccurs ih => exact legal_occurs htarget hmade ih hoccurs

/-- **No history breaks a workspace.**  Whatever removals and inspections ran or were stopped,
with calls that failed part of the way, the ownership is readable and the one that was recorded,
the target is at no more than one of its places, where it is isolated the ownership says so, and no
operation directory has outlived it. -/
theorem legal_of_history (htarget : reservation.targetPath = site.path leaf)
    (hmade : Registrable toml site leaf reservation.workspaceId record) {start w : World κ}
    (hstart : Begun toml site leaf reservation.workspaceId record start)
    (hhistory : Relation.ReflTransGen (Occurs euid toml site leaf layout reservation) start w) :
    Legal toml site leaf reservation.workspaceId record w :=
  hstart.stays_legal htarget hmade hhistory

/-- The record is that of the site, the layout and the reservation. -/
theorem Kept.recorded {id : WorkspaceId} {w : World κ} {ownership : WorkspaceOwnership}
    (h : Kept toml site id record w ownership)
    (hrecorded : Recorded site layout reservation record) :
    Recorded site layout reservation ownership := by
  rcases h.2 with rfl | rfl
  · exact hrecorded
  · exact ⟨hrecorded.registers, hrecorded.parent, hrecorded.volumeId, hrecorded.mountId⟩

/-- **An inspection tells where the target is.**  In a legal state, whatever fails, it changes
nothing and the path it returns is the one where the target is; and in a quiet world it
returns. -/
theorem inspectRemovalContainer_right (htarget : reservation.targetPath = site.path leaf)
    (hrecorded : Recorded site layout reservation record) {w : World κ}
    (hlegal : Legal toml site leaf reservation.workspaceId record w) :
    (∀ w', Visits (faulty euid site) (inspectRemovalContainer toml layout reservation) w w' →
      w' = w) ∧
    (∀ answer w', Returns (faulty euid site) (inspectRemovalContainer toml layout reservation) w
      (.ok answer) w' → answer = whereabouts site leaf reservation.workspaceId w) ∧
    (∀ outcome w', Returns (quiet euid site) (inspectRemovalContainer toml layout reservation) w
      outcome w' → outcome = .ok (whereabouts site leaf reservation.workspaceId w)) ∧
    ∃ outcome w', Returns (quiet euid site) (inspectRemovalContainer toml layout reservation) w
      outcome w' := by
  have hfaulty : Finds euid site false _ (inspectRemovalContainer toml layout reservation) w :=
    faulty_inspectRemovalContainer htarget w
  have hquiet : Finds euid site true
      (fun answer => answer = whereabouts site leaf reservation.workspaceId w)
      (inspectRemovalContainer toml layout reservation) w := by
    refine finds_inspectRemovalContainer htarget fun _ => ?_
    obtain ⟨ownership, hkept⟩ := hlegal.kept
    exact ⟨ownership, hkept.1, hkept.recorded hrecorded, hlegal.located hkept.1⟩
  refine ⟨fun w' run => eq_of_visits hfaulty run, fun answer w' run => ?_,
    fun outcome w' run => ?_, ?_⟩
  · exact (Safe.of_returns hfaulty run).2
  · have hpost := Safe.of_returns hquiet run
    cases outcome with
    | ok answer => exact congrArg Except.ok hpost.2
    | error e => cases hpost
  · exact Safe.exists_returns (fun c s _ => quiet_live euid site c s) hquiet

/-! ### A removal that is resumed

Where the target is gone a removal fails, for that reason in a quiet world, and changes
nothing.  Where it is not gone and nothing keeps the removal from going on, it comes to its
end. -/

/-- A target that is somewhere is not absent from both of its places. -/
theorem whereabouts_ne_none {id : WorkspaceId} {w : World κ}
    (h : whereabouts site leaf id w ≠ none) :
    ¬∀ at', w.children (place leaf id at').bytes = none :=
  fun hgone => h (whereabouts_eq_none hgone)

/-- A target that is nowhere is absent from either place. -/
theorem places_of_whereabouts {id : WorkspaceId} {w : World κ}
    (h : whereabouts site leaf id w = none) (atIsolatedPath : Bool) :
    w.children (place leaf id atIsolatedPath).bytes = none := by
  unfold whereabouts at h
  cases hleaf : w.children leaf.bytes with
  | some child =>
    rw [hleaf] at h
    cases h
  | none =>
    cases hisolated : w.children (isolated id).bytes with
    | some child =>
      rw [hleaf, hisolated] at h
      cases h
    | none =>
      cases atIsolatedPath
      · exact hleaf
      · exact hisolated

/-- The error of a removal whose target is gone. -/
def missingTarget : PortError := .new .notFound "registered Workspace target is missing"

/-- Where the target is gone a removal only reads, and it fails: in a quiet world, for that.  The
ownership is found and both places are empty, so locating the target ends the removal before
anything is written. -/
theorem safe_removeWorkspace_gone {calm : Bool} {w : World κ}
    (htarget : reservation.targetPath = site.path leaf)
    (hgone : whereabouts site leaf reservation.workspaceId w = none)
    (hcalm : calm = true → ∃ ownership, Documented toml w reservation.workspaceId ownership ∧
      Recorded site layout reservation ownership) :
    Safe (environment euid site calm) (fun c _ => c.Reads) (fun outcome _ =>
      (∀ removal, outcome ≠ .ok removal) ∧ (calm = true → outcome = .error missingTarget))
      (removeWorkspace euid toml layout reservation) w := by
  have hplaces := places_of_whereabouts hgone
  have hfailed : ∀ (e : PortError) (w' : World κ), calm = false →
      (∀ removal, (.error e : Except PortError WorkspaceRemoval) ≠ .ok removal) ∧
        (calm = true → (.error e : Except PortError WorkspaceRemoval) = .error missingTarget) := by
    refine fun e w' hstormy => ⟨nofun, fun h => ?_⟩
    rw [hstormy] at h
    cases h
  refine Finds.thenSafe (finds_callOr trivial fun _ => ⟨(), w, rfl, trivial⟩) (fun _ _ => ?_)
    hfailed
  refine Finds.thenSafe (finds_callOr trivial fun _ => ⟨(), w, rfl, trivial⟩) (fun _ _ => ?_)
    hfailed
  refine Finds.thenSafe (finds_registeredTarget htarget hcalm) (fun registered hregistered => ?_)
    hfailed
  refine Finds.thenSafe (finds_locateTarget hregistered.2.1 fun _ => .inl hplaces)
    (fun located hlocated => ?_) hfailed
  cases located with
  | none => exact ⟨nofun, fun _ => rfl⟩
  | some found =>
    obtain ⟨folder, hstands⟩ := Located.stands hlocated
    have hchild := World.children_of_folder? w hstands.named
    rw [hplaces found.2] at hchild
    cases hchild

/-- **A removal of a target that is gone does nothing.**  Whatever fails, it changes nothing and
does not report success; in a quiet world it reports that the target is missing. -/
theorem removeWorkspace_gone (htarget : reservation.targetPath = site.path leaf)
    (hrecorded : Recorded site layout reservation record) {w : World κ}
    (hlegal : Legal toml site leaf reservation.workspaceId record w)
    (hgone : whereabouts site leaf reservation.workspaceId w = none) :
    (∀ w', Visits (faulty euid site) (removeWorkspace euid toml layout reservation) w w' →
      w' = w) ∧
    (∀ removal w', ¬Returns (faulty euid site) (removeWorkspace euid toml layout reservation) w
      (.ok removal) w') ∧
    ∀ outcome w', Returns (quiet euid site) (removeWorkspace euid toml layout reservation) w
      outcome w' → outcome = .error missingTarget := by
  have hfaulty : Safe (faulty euid site) (fun c _ => c.Reads) (fun outcome _ =>
      (∀ removal, outcome ≠ .ok removal) ∧ (false = true → outcome = .error missingTarget))
      (removeWorkspace euid toml layout reservation) w :=
    safe_removeWorkspace_gone htarget hgone nofun
  refine ⟨fun w' run => ?_, fun removal w' run => ?_, fun outcome w' run => ?_⟩
  · exact eq_of_visits hfaulty run
  · exact (Safe.of_returns hfaulty run).1 removal rfl
  · obtain ⟨ownership, hkept⟩ := hlegal.kept
    have hrecorded' := hkept.recorded hrecorded
    exact (Safe.of_returns (safe_removeWorkspace_gone htarget hgone
      fun _ => ⟨ownership, hkept.1, hrecorded'⟩) run).2 rfl

/-- What a removal needs to come to its end: what lies in the directories can be removed, and
while the path of the isolation is not registered, it can be. -/
structure Completable (toml : TomlLibrary) (site : Site κ) (leaf : FileName)
    (id : WorkspaceId) (record : WorkspaceOwnership) (w : World κ) : Prop where
  removable : ∀ name folder, name = leaf.bytes ∨ name ∈ Application.siblingNames id →
    w.folder? name = some folder → site.removable folder.contents
  encodable : ∃ bytes, encodeWorkspaceOwnership toml (isolate site id record) = .ok bytes
  stageable : Stageable w

/-- **A removal that was stopped is finished by the next.**  From the creation on, whatever ran
before and wherever it was stopped, a removal in a quiet world returns: the target and both
operation directories are gone, every other entry is as it was, and there is such a run. -/
theorem removeWorkspace_completes (htarget : reservation.targetPath = site.path leaf)
    (hmade : Registrable toml site leaf reservation.workspaceId record)
    (hrecorded : Recorded site layout reservation record) {start w : World κ}
    (hstart : Begun toml site leaf reservation.workspaceId record start)
    (hhistory : Relation.ReflTransGen (Occurs euid toml site leaf layout reservation) start w)
    (hthere : whereabouts site leaf reservation.workspaceId w ≠ none)
    (hcan : Completable toml site leaf reservation.workspaceId record w) :
    (∀ outcome w', Returns (quiet euid site) (removeWorkspace euid toml layout reservation) w
      outcome w' → ∃ removal ownership, outcome = .ok removal ∧
        Kept toml site reservation.workspaceId record w ownership ∧
        Removed toml site leaf reservation.workspaceId w w' ownership) ∧
    ∃ outcome w', Returns (quiet euid site) (removeWorkspace euid toml layout reservation) w
      outcome w' := by
  have hlegal := hstart.stays_legal htarget hmade hhistory
  obtain ⟨ownership, hkept⟩ := hlegal.kept
  have hresumable : Resumable toml site leaf layout reservation w ownership := by
    refine ⟨hmade.unreserved, hkept.1, hkept.recorded hrecorded,
      (hlegal.located hkept.1).resolve_left (whereabouts_ne_none hthere), ?_, ?_, fun hnone => ?_⟩
    · intro at' folder hfolder
      refine hcan.removable _ folder ?_ hfolder
      cases at'
      · exact .inl rfl
      · exact .inr (isolatedName_mem _)
    · intro kind
      rcases hlegal.operation kind with hgone | ⟨folder, hfolder, hidentity, hprivate⟩
      · exact .inl hgone
      · refine .inr ⟨folder, hfolder, ?_, hprivate,
          hcan.removable _ folder (.inr (kind.name_mem _)) hfolder⟩
        rw [hkept.target.2 kind]
        exact hidentity
    · rw [hkept.unregistered hnone]
      exact ⟨⟨hcan.encodable, hmade.readsBack⟩, hcan.stageable⟩
  have hquiet : Attains euid site true (permitted site leaf reservation.workspaceId toml) _
    (removeWorkspace euid toml layout reservation) w :=
    attains_removeWorkspace htarget fun _ => ⟨ownership, hresumable⟩
  constructor
  · intro outcome w' run
    have hpost := Safe.of_returns hquiet run
    cases outcome with
    | ok removal =>
      obtain ⟨other, hother, hremoved⟩ := hpost
      obtain rfl := hkept.1.unique hother
      exact ⟨removal, other, rfl, hkept, hremoved⟩
    | error e => cases hpost
  · exact Safe.exists_returns (fun c s _ => quiet_live euid site c s) hquiet

/-! ### A workspace at `/t`

A workspace at `/t` with its documents written out, so that the conditions of the theorems
can be checked.  The library knows its two documents and reads back what it prints. -/

/-- A library that prints and reads the given tables. -/
def printing (tables : List TomlTable) : TomlLibrary where
  toText table := if tables.contains table then some (Linux.tomlText table) else none
  fromText text := tables.find? fun table => Linux.tomlText table == text

/-- The letter `t` is a proper file name, so it can be the name of the target. -/
theorem sampleLeaf_normal : AbsolutePath.Normal [116] := by
  refine ⟨by decide, by decide, by decide⟩

/-- The name `t`, of the target of the sample. -/
def sampleLeaf : FileName := ⟨[116], sampleLeaf_normal⟩

/-- The root path has no component that would have to be proper. -/
theorem components_root_normal : ∀ part ∈ ([] : List (List UInt8)), AbsolutePath.Normal part :=
  nofun

/-- The root directory on a Btrfs volume, whose directories hold something or nothing. -/
def sampleSite : Site Bool where
  parent := AbsolutePath.ofComponents [] components_root_normal
  identity := ⟨256, 1, 0⟩
  device := 7
  volumeId := sampleReservation.targetVolumeId
  mountId := 1
  ancestors := []
  writability := .supported
  empty := false
  removable := fun _ => True

/-- The ownership of the reserved workspace, before any isolation is registered in it. -/
def sampleOwnership : WorkspaceOwnership where
  instanceId := sampleReservation.instanceId
  workspaceId := sampleReservation.workspaceId
  volumeId := sampleReservation.targetVolumeId
  targetPath := sampleReservation.targetPath
  parent := sampleSite.identity
  target := ⟨257, 2, 0⟩
  staging :=
    ⟨sampleSite.path (OperationKind.name sampleReservation.workspaceId .staging), ⟨258, 2, 0⟩⟩
  trash :=
    ⟨sampleSite.path (OperationKind.name sampleReservation.workspaceId .trash), ⟨259, 2, 0⟩⟩
  isolatedPath := none
  mountId := 1

/-- The layout of the installation that the reserved workspace belongs to. -/
def sampleLayout : Layout := ⟨sampleReservation.instanceId, samplePath 2, ⟨7, 300⟩⟩

/-- The library of its two documents: the ownership before the isolation is registered, and after.
-/
def sampleToml : TomlLibrary :=
  printing [(Linux.ownershipDocument (isolate sampleSite sampleReservation.workspaceId
    sampleOwnership)).toTable, (Linux.ownershipDocument sampleOwnership).toTable]

/-- What stands under a name after the creation: the target and the operation directories. -/
def sampleChildren (name : List UInt8) : Option (Child Bool) :=
  if name = sampleLeaf.bytes then some (.folder ⟨7, sampleOwnership.target, true, true⟩)
  else if name = (OperationKind.name sampleReservation.workspaceId .staging).bytes then
    some (.folder ⟨7, sampleOwnership.staging.identity, true, true⟩)
  else if name = (OperationKind.name sampleReservation.workspaceId .trash).bytes then
    some (.folder ⟨7, sampleOwnership.trash.identity, true, false⟩)
  else none

/-- The document of the ownership, as the sample library prints it. -/
def sampleBytes : List UInt8 :=
  asBytes (Linux.tomlText (Linux.ownershipDocument sampleOwnership).toTable)

/-- The workspace as it was created: its target and its document, with nothing beside them. -/
def sampleWorld : World Bool where
  children := sampleChildren
  documents name := if name = .ownership sampleReservation.workspaceId then some sampleBytes
    else none

/-- The reserved target is the entry `t` of the site. -/
theorem sampleTarget : sampleReservation.targetPath = sampleSite.path sampleLeaf :=
  AbsolutePath.asBytes_injective (by decide +kernel)

/-- The text of a table with one entry more is the text of the table and that entry's line. -/
theorem tomlText_concat (table : TomlTable) (entry : String × Toml) :
    Linux.tomlText (table ++ [entry]) = Linux.tomlText table ++ Linux.tomlLine entry := by
  simp [Linux.tomlText, String.join, List.foldl_append]

/-- Every entry has a line of at least one byte. -/
theorem length_tomlLine_pos (entry : String × Toml) :
    0 < (asBytes (Linux.tomlLine entry)).length := by
  have hnewline : 0 < (asBytes "\n").length := by decide
  obtain ⟨key, n | text⟩ := entry
  · simp only [Linux.tomlLine, asBytes_append, List.length_append]
    omega
  · have hquote : 0 < (asBytes "\"\n").length := by decide
    simp only [Linux.tomlLine, asBytes_append, List.length_append]
    omega

/-- The isolated workspace has one more line in its document. -/
theorem sampleTable_isolated : ∃ entry,
    (Linux.ownershipDocument
      (isolate sampleSite sampleReservation.workspaceId sampleOwnership)).toTable =
    (Linux.ownershipDocument sampleOwnership).toTable ++ [entry] :=
  ⟨_, rfl⟩

/-- The longer of the two documents is within the limit of a document. -/
theorem length_sampleTables : (asBytes (Linux.tomlText (Linux.ownershipDocument
    (isolate sampleSite sampleReservation.workspaceId sampleOwnership)).toTable)).length ≤
    Linux.maxDocumentBytes := by
  decide +kernel

/-- The document without the isolation is the shorter one. -/
theorem length_sampleBytes : sampleBytes.length < (asBytes (Linux.tomlText
    (Linux.ownershipDocument
      (isolate sampleSite sampleReservation.workspaceId sampleOwnership)).toTable)).length := by
  obtain ⟨entry, hentry⟩ := sampleTable_isolated
  have hpos := length_tomlLine_pos entry
  rw [hentry, tomlText_concat, asBytes_append, List.length_append, sampleBytes]
  omega

/-- A library prints the tables it knows, as long as they are within the limit. -/
theorem encodeToml_printing {tables : List TomlTable} {table : TomlTable} (hmem : table ∈ tables)
    (hlength : (asBytes (Linux.tomlText table)).length ≤ Linux.maxDocumentBytes) :
    Linux.encodeToml (printing tables) table = .ok (asBytes (Linux.tomlText table)) := by
  have htext : (printing tables).toText table = some (Linux.tomlText table) :=
    if_pos (List.contains_iff_mem.mpr hmem)
  unfold Linux.encodeToml
  rw [htext]
  exact if_neg (Nat.not_lt.mpr hlength)

/-- The sample ownership is encoded as its document, within the limit of a document. -/
theorem sampleEncoded : Linux.encodeWorkspaceOwnership sampleToml sampleOwnership =
    .ok sampleBytes :=
  encodeToml_printing (List.mem_cons_of_mem _ (List.mem_singleton.mpr rfl))
    (Nat.le_trans (Nat.le_of_lt length_sampleBytes) length_sampleTables)

/-- A library finds a table by its text if no other table has that text. -/
theorem fromText_printing {tables : List TomlTable} (h : (tables.map Linux.tomlText).Nodup)
    {table : TomlTable} (hmem : table ∈ tables) :
    (printing tables).fromText (Linux.tomlText table) = some table := by
  have hfind : ∀ other ∈ tables, Linux.tomlText other = Linux.tomlText table → other = table :=
    fun other hother htext => List.inj_on_of_nodup_map h hother hmem htext
  have hsome : ((printing tables).fromText (Linux.tomlText table)).isSome := by
    simp only [printing, List.find?_isSome, beq_iff_eq]
    exact ⟨table, hmem, rfl⟩
  obtain ⟨found, hfound⟩ := Option.isSome_iff_exists.mp hsome
  have htext := List.find?_some hfound
  rw [hfound, hfind found (List.mem_of_find?_eq_some hfound) (eq_of_beq htext)]

/-- A library whose texts differ reads back what it prints. -/
theorem printing_readsBack {tables : List TomlTable} (h : (tables.map Linux.tomlText).Nodup)
    (table : TomlTable) : (printing tables).ReadsBack table := by
  intro text htext
  have htext' : (if tables.contains table then some (Linux.tomlText table) else none) =
      some text := htext
  split at htext'
  · rename_i hmem
    rw [← Option.some.inj htext']
    exact fromText_printing h (List.contains_iff_mem.mp hmem)
  · cases htext'

/-- The sample library reads back what it prints of any ownership. -/
theorem sampleToml_readsBack (record : WorkspaceOwnership) :
    sampleToml.ReadsBack (Linux.ownershipDocument record).toTable := by
  refine printing_readsBack ?_ _
  have hlength := length_sampleBytes
  simp only [List.map_cons, List.map_nil, List.nodup_cons, List.mem_singleton,
    List.not_mem_nil, not_false_eq_true, List.nodup_nil, and_true]
  intro htext
  rw [htext] at hlength
  exact Nat.lt_irrefl _ hlength

/-- An identity with an inode and a proper time is valid. -/
theorem sampleIdentity_valid (identity : Linux.HistoricalDirectoryIdentity)
    (h : identity.inode ≠ 0 ∧ 0 ≤ identity.birthSeconds.toInt ∧
      identity.birthNanoseconds.toNat < 1000000000) : identity.Valid :=
  ⟨h.1, h.2.1, h.2.2⟩

/-- The sample ownership keeps its invariant, so it can be read back from its document. -/
theorem sampleOwnership_valid : sampleOwnership.Valid := by
  refine valid_of_paths (sampleIdentity_valid _ (by decide)) (sampleIdentity_valid _ (by decide))
    (fun kind => ?_) sampleTarget
    (show sampleOwnership.workspaceId = sampleReservation.workspaceId from rfl) rfl (by decide)
  cases kind
  · exact ⟨sampleIdentity_valid _ (by decide), rfl⟩
  · exact ⟨sampleIdentity_valid _ (by decide), rfl⟩

/-- The isolation of the sample can be registered: both ownerships are valid and have documents. -/
theorem sampleRegistrable : Registrable sampleToml sampleSite sampleLeaf
    sampleReservation.workspaceId sampleOwnership where
  unreserved := by
    unfold Unreserved
    decide +kernel
  workspaceId := rfl
  targetPath := sampleTarget
  valid := sampleOwnership_valid
  unregistered := rfl
  readsBack := sampleToml_readsBack _

/-- The sample ownership is the one of the sample reservation, on the sample site. -/
theorem sampleRecorded :
    Recorded sampleSite sampleLayout sampleReservation sampleOwnership where
  registers := ⟨rfl, rfl, rfl, rfl, rfl⟩
  parent := rfl
  volumeId := rfl
  mountId := rfl

/-- The sample world is the one that a creation leaves.  The document decodes to the ownership it
was printed from, and the directories stand under their names. -/
theorem sampleBegun : Begun sampleToml sampleSite sampleLeaf sampleReservation.workspaceId
    sampleOwnership sampleWorld where
  documented := by
    have hdocument : sampleWorld.documents (.ownership sampleReservation.workspaceId) =
        some sampleBytes := by simp [sampleWorld]
    refine ⟨rfl, sampleBytes, hdocument, ?_⟩
    exact Linux.roundTrips_ownership.read_back _ _ sampleOwnership_valid
      (sampleToml_readsBack _) sampleEncoded
  target := by
    have hchild : sampleChildren sampleLeaf.bytes = some (.folder
        ⟨7, sampleOwnership.target, true, true⟩) := by simp [sampleChildren]
    exact ⟨_, World.folder?_of_children sampleWorld hchild, rfl⟩
  operation kind := by
    have hchild : sampleChildren (kind.name sampleReservation.workspaceId).bytes = some (.folder
        ⟨7, (kind.evidence sampleOwnership).identity, true, kind = .staging⟩) := by
      cases kind
      · decide +kernel
      · decide +kernel
    exact ⟨_, World.folder?_of_children sampleWorld hchild, rfl, rfl⟩
  isolated := by
    have hnone : sampleChildren (isolated sampleReservation.workspaceId).bytes = none := by
      decide +kernel
    exact hnone

/-- Whatever the sample's directories hold, they can be emptied, and the isolation can be
registered while there is a free name for the staged document. -/
theorem sampleCompletable {w : World Bool}
    (hfree : w.documents (.staged updateStem (sampleUuid 0)) = none) :
    Completable sampleToml sampleSite sampleLeaf sampleReservation.workspaceId sampleOwnership
      w where
  removable _ _ _ _ := trivial
  encodable := ⟨_, encodeToml_printing List.mem_cons_self length_sampleTables⟩
  stageable := ⟨sampleUuid 0, hfree⟩

/-! ### A removal that was stopped

The removal is stopped behind its isolation, after a fixed number of calls in a world that
computes its answers; an inspection is stopped after it.  What they leave is a state in
which the next removal succeeds. -/

/-- The names under which the workspace has directories. -/
def sampleNames : List FileName :=
  [sampleLeaf, isolated sampleReservation.workspaceId,
    OperationKind.name sampleReservation.workspaceId .staging,
    OperationKind.name sampleReservation.workspaceId .trash]

/-- Every directory of the sample world is private, as the check of a removal asks. -/
theorem allPrivate_sampleWorld : AllPrivate sampleWorld := by
  intro name folder hfolder
  have hchild : sampleChildren name = some (.folder folder) := World.children_of_folder? _ hfolder
  unfold sampleChildren at hchild
  split at hchild
  · cases hchild
    rfl
  · split at hchild
    · cases hchild
      rfl
    · split at hchild
      · cases hchild
        rfl
      · cases hchild

/-- The ownership once the isolation is registered: the same, with the isolated path. -/
def sampleIsolation : WorkspaceOwnership :=
  isolate sampleSite sampleReservation.workspaceId sampleOwnership

/-- Its document, as the sample library prints it. -/
def sampleIsolationBytes : List UInt8 :=
  asBytes (Linux.tomlText (Linux.ownershipDocument sampleIsolation).toTable)

/-- The two documents are decoded by comparing them with what was encoded. -/
def sampleDecode (bytes : List UInt8) : Except Linux.DocumentError WorkspaceOwnership :=
  if bytes = sampleBytes then .ok sampleOwnership
  else if bytes = sampleIsolationBytes then .ok sampleIsolation
  else Linux.decodeWorkspaceOwnership sampleToml bytes

/-- The ownership with the isolation registered keeps its invariant. -/
theorem sampleIsolation_valid : sampleIsolation.Valid :=
  isolate_valid sampleOwnership_valid sampleTarget rfl

/-- The decoder does what the comparison does; the kernel evaluates the latter much faster. -/
theorem decode_sample : Linux.decodeWorkspaceOwnership sampleToml = sampleDecode := by
  funext bytes
  unfold sampleDecode
  split
  · rename_i hbytes
    rw [hbytes]
    exact Linux.roundTrips_ownership.read_back _ _ sampleOwnership_valid
      (sampleToml_readsBack _) sampleEncoded
  · split
    · rename_i hbytes
      rw [hbytes]
      exact Linux.roundTrips_ownership.read_back _ _ sampleIsolation_valid
        (sampleToml_readsBack _) (encodeToml_printing List.mem_cons_self length_sampleTables)
    · rfl

/-- The target has been isolated and nothing else is left to do first. -/
structure SampleStopped (w : World Bool) : Prop where
  target : w.children sampleLeaf.bytes = none
  isolated : w.children (isolated sampleReservation.workspaceId).bytes =
    some (.folder ⟨7, sampleOwnership.target, true, true⟩)
  staged : w.documents (.staged updateStem (sampleUuid 0)) = none

instance (w : World Bool) : Decidable (SampleStopped w) :=
  decidable_of_iff (w.children sampleLeaf.bytes = none ∧
      w.children (isolated sampleReservation.workspaceId).bytes =
        some (.folder ⟨7, sampleOwnership.target, true, true⟩) ∧
      w.documents (.staged updateStem (sampleUuid 0)) = none)
    ⟨fun h => ⟨h.1, h.2.1, h.2.2⟩, fun h => ⟨h.target, h.isolated, h.staged⟩⟩

/-- A removal that was stopped there has not removed its target. -/
theorem SampleStopped.there {w : World Bool} (h : SampleStopped w) :
    whereabouts sampleSite sampleLeaf sampleReservation.workspaceId w ≠ none := by
  unfold whereabouts
  rw [h.target, h.isolated]
  exact Option.some_ne_none _

/-- A removal that was stopped there can be completed. -/
theorem SampleStopped.completable {w : World Bool} (h : SampleStopped w) :
    Completable sampleToml sampleSite sampleLeaf sampleReservation.workspaceId sampleOwnership
      w :=
  sampleCompletable h.staged

/-- What a removal and then an inspection of the workspace leave, each stopped after so many
calls. -/
def sampleRuns (removed inspected : ℕ) : Option (World Bool × World Bool) :=
  (stopped 1000 sampleSite sampleNames removed
    (removeWorkspace 1000 sampleToml sampleLayout sampleReservation) sampleWorld).bind fun w =>
      (stopped 1000 sampleSite sampleNames inspected
        (inspectRemovalContainer sampleToml sampleLayout sampleReservation) w).map fun w' =>
          (w, w')

/-- A removal that is stopped after 150 calls, and an inspection that is stopped after 100, leave
such a world. -/
theorem sampleRuns_stopped :
    ((sampleRuns 150 100).any fun worlds => decide (SampleStopped worlds.2)) = true := by
  simp only [sampleRuns, removeWorkspace, inspectRemovalContainer, registeredTarget,
    verifySelectedTarget, verifyOperationScope, removeOperation, removeOperationDirectory,
    persistWorkspaceOwnership, registerIsolation, isolateTarget, isolateOnce, removeIsolated,
    confirmRemoved, requireStill, confirmExchange, readWorkspaceOwnership, decode_sample]
  decide +kernel

/-- **A removal may be stopped behind the isolation.**  Its first 150 calls clear both operation
directories, register the path of the isolation and move the target there; an inspection then
runs to its end. -/
theorem exists_sampleStopped : ∃ w w',
    Visits (faulty 1000 sampleSite)
      (removeWorkspace 1000 sampleToml sampleLayout sampleReservation) sampleWorld w ∧
    Visits (faulty 1000 sampleSite)
      (inspectRemovalContainer sampleToml sampleLayout sampleReservation) w w' ∧
    SampleStopped w' := by
  obtain ⟨⟨w, w'⟩, hruns, hstopped⟩ := (Option.any_eq_true _ _).mp sampleRuns_stopped
  obtain ⟨first, hremove, hrest⟩ := Option.bind_eq_some_iff.mp hruns
  obtain ⟨second, hinspect, he⟩ := Option.map_eq_some_iff.mp hrest
  cases he
  have hremovable : ∀ contents, sampleSite.removable contents := fun _ => trivial
  obtain ⟨hvisits, hprivate⟩ := visits_stopped hremovable allPrivate_sampleWorld hremove
  obtain ⟨hvisits', -⟩ := visits_stopped hremovable hprivate hinspect
  exact ⟨w, w', faulty_of_visits _ _ hvisits, faulty_of_visits _ _ hvisits',
    of_decide_eq_true hstopped⟩

/-- The workspace after its removal: no entry is left, the documents are. -/
def sampleGone : World Bool := { sampleWorld with children := fun _ => none }

/-- The state after the removal is a legal one. -/
theorem sampleGone_legal : Legal sampleToml sampleSite sampleLeaf sampleReservation.workspaceId
    sampleOwnership sampleGone where
  kept := ⟨sampleOwnership, sampleBegun.documented.congr rfl, .inl rfl⟩
  operation _ := .inl rfl
  target := .inr ⟨rfl, fun _ => rfl, .inl rfl⟩

/-- A removal of the created workspace: at every moment of it that is reached, the call that is
made is permitted. -/
theorem removeWorkspace_permitted_sample : OnlyPermitted 1000 sampleToml sampleSite sampleLeaf
    sampleReservation.workspaceId
    (removeWorkspace 1000 sampleToml sampleLayout sampleReservation) sampleWorld :=
  removeWorkspace_permitted sampleTarget sampleWorld

/-- The same removal of the created workspace, honest at every moment and at its end: what is not
the workspace's is kept, and a success means that the workspace is gone. -/
theorem removeWorkspace_honest_sample :
    (∀ w', Visits (faulty 1000 sampleSite)
      (removeWorkspace 1000 sampleToml sampleLayout sampleReservation) sampleWorld w' →
        OthersKept sampleLeaf sampleReservation.workspaceId sampleWorld w') ∧
    ∀ removal w', Returns (faulty 1000 sampleSite)
      (removeWorkspace 1000 sampleToml sampleLayout sampleReservation) sampleWorld
      (.ok removal) w' → ∃ ownership,
        Documented sampleToml sampleWorld sampleReservation.workspaceId ownership ∧
        Removed sampleToml sampleSite sampleLeaf sampleReservation.workspaceId sampleWorld w'
          ownership :=
  removeWorkspace_honest sampleTarget sampleWorld

/-- A history of the workspace: a removal that was stopped once the target was isolated, and an
inspection that found it there. -/
theorem legal_of_history_sample : ∃ w w',
    Visits (faulty 1000 sampleSite)
      (removeWorkspace 1000 sampleToml sampleLayout sampleReservation) sampleWorld w ∧
    Visits (faulty 1000 sampleSite)
      (inspectRemovalContainer sampleToml sampleLayout sampleReservation) w w' ∧
    SampleStopped w' ∧
    Legal sampleToml sampleSite sampleLeaf sampleReservation.workspaceId sampleOwnership w' := by
  obtain ⟨w, w', hremove, hinspect, hstopped⟩ := exists_sampleStopped
  exact ⟨w, w', hremove, hinspect, hstopped, legal_of_history sampleTarget sampleRegistrable
    sampleBegun ((Relation.ReflTransGen.single (.remove hremove)).tail (.inspect hinspect))⟩

/-- An inspection of the created workspace: it leaves the world as it was, and in a quiet one it
returns where the target is. -/
theorem inspectRemovalContainer_right_sample :
    (∀ w', Visits (faulty 1000 sampleSite)
      (inspectRemovalContainer sampleToml sampleLayout sampleReservation) sampleWorld w' →
        w' = sampleWorld) ∧
    (∀ answer w', Returns (faulty 1000 sampleSite)
      (inspectRemovalContainer sampleToml sampleLayout sampleReservation) sampleWorld
      (.ok answer) w' →
        answer = whereabouts sampleSite sampleLeaf sampleReservation.workspaceId sampleWorld) ∧
    (∀ outcome w', Returns (quiet 1000 sampleSite)
      (inspectRemovalContainer sampleToml sampleLayout sampleReservation) sampleWorld
      outcome w' → outcome =
        .ok (whereabouts sampleSite sampleLeaf sampleReservation.workspaceId sampleWorld)) ∧
    ∃ outcome w', Returns (quiet 1000 sampleSite)
      (inspectRemovalContainer sampleToml sampleLayout sampleReservation) sampleWorld
      outcome w' :=
  inspectRemovalContainer_right sampleTarget sampleRecorded sampleBegun.legal

/-- A removal once the workspace is gone: it changes nothing, and reports the missing target. -/
theorem removeWorkspace_gone_sample :
    (∀ w', Visits (faulty 1000 sampleSite)
      (removeWorkspace 1000 sampleToml sampleLayout sampleReservation) sampleGone w' →
        w' = sampleGone) ∧
    (∀ removal w', ¬Returns (faulty 1000 sampleSite)
      (removeWorkspace 1000 sampleToml sampleLayout sampleReservation) sampleGone
      (.ok removal) w') ∧
    ∀ outcome w', Returns (quiet 1000 sampleSite)
      (removeWorkspace 1000 sampleToml sampleLayout sampleReservation) sampleGone outcome w' →
        outcome = .error missingTarget :=
  removeWorkspace_gone sampleTarget sampleRecorded sampleGone_legal rfl

/-- The removal that finishes the one that was stopped: after it and an inspection, a removal in a
quiet world returns, and the workspace is gone. -/
theorem removeWorkspace_completes_sample : ∃ w w',
    Visits (faulty 1000 sampleSite)
      (removeWorkspace 1000 sampleToml sampleLayout sampleReservation) sampleWorld w ∧
    Visits (faulty 1000 sampleSite)
      (inspectRemovalContainer sampleToml sampleLayout sampleReservation) w w' ∧
    SampleStopped w' ∧
    (∀ outcome w'', Returns (quiet 1000 sampleSite)
      (removeWorkspace 1000 sampleToml sampleLayout sampleReservation) w'
      outcome w'' → ∃ removal ownership, outcome = .ok removal ∧
        Kept sampleToml sampleSite sampleReservation.workspaceId sampleOwnership w' ownership ∧
        Removed sampleToml sampleSite sampleLeaf sampleReservation.workspaceId w' w'' ownership) ∧
    ∃ outcome w'', Returns (quiet 1000 sampleSite)
      (removeWorkspace 1000 sampleToml sampleLayout sampleReservation) w' outcome w'' := by
  obtain ⟨w, w', hremove, hinspect, hstopped⟩ := exists_sampleStopped
  exact ⟨w, w', hremove, hinspect, hstopped, removeWorkspace_completes sampleTarget
    sampleRegistrable sampleRecorded sampleBegun
    ((Relation.ReflTransGen.single (.remove hremove)).tail (.inspect hinspect))
    hstopped.there hstopped.completable⟩

end Lifecycle
end ThinWorkspace
