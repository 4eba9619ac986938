/-
# A world that computes its answers

Source: the calls that `crates/thinws-adapter-linux/src/workspace.rs` makes, as in `Calls`.

`LifecycleCall.effect` says everything that a call may do.  `answer` is one world among those it
allows: every call succeeds where it can, a probe reports the directory that is there, and a name
that is missing is reported as missing.  An answer is a step of a quiet world (`quiet_answer`), so
whatever a program has done after some of these answers is the state of a run that was stopped
there (`visits_stopped`).

The directories that a path may lead to are found among given names, since a world does not list
its entries, and all of them are private.  A removal makes no directory, so `mkdir` has no answer.
-/

import ThinWorkspace.Lifecycle.Locate

namespace ThinWorkspace
namespace Lifecycle

open ThinWorkspace.Core Lib Ports
open Linux (HistoricalDirectoryIdentity Stat)
open Program (Visits)

variable {κ : Type} {site : Site κ} {names : List FileName} {w w' : World κ} {euid : UInt32}

/-- The directory that a path leads to: the parent, or an entry of it under one of the names. -/
def Site.lookup (site : Site κ) (names : List FileName) (w : World κ) (path : AbsolutePath) :
    Option (HistoricalDirectoryIdentity × UInt64) :=
  if path = site.parent then some (site.identity, site.device)
  else (names.find? fun name => decide (site.path name = path)).bind fun name =>
    (w.folder? name.bytes).map fun folder => (folder.identity, folder.device)

/-- What is looked up under a path is there.  The lookup tries the parent first and then the listed
names, which are the two ways in which a path is that of a directory of the site. -/
theorem Site.at_of_lookup {path : AbsolutePath} {found : HistoricalDirectoryIdentity × UInt64}
    (h : site.lookup names w path = some found) : site.At w path found.1 found.2 := by
  unfold Site.lookup at h
  split at h
  · rename_i hparent
    obtain rfl := Option.some.inj h
    rw [hparent]
    exact .parent
  · obtain ⟨name, hname, h⟩ := Option.bind_eq_some_iff.mp h
    obtain ⟨folder, hfolder, rfl⟩ := Option.map_eq_some_iff.mp h
    have hpath := List.find?_some hname
    rw [decide_eq_true_eq] at hpath
    rw [← hpath]
    exact .child hfolder

/-- The answer of the world to a call, and the world after it. -/
def answer (euid : UInt32) (site : Site κ) [DecidableEq κ] (names : List FileName) (w : World κ) :
    (c : LifecycleCall) → Option (c.Result × World κ)
  | .readDocument name => some (.ok ((w.documents name).map (·.take Linux.readLimit)), w)
  | .stageDocument stem bytes =>
    match w.documents (.staged stem (sampleUuid 0)) with
    | none => some (.ok (.staged stem (sampleUuid 0)),
        w.setDocument (.staged stem (sampleUuid 0)) (some bytes))
    | some _ => none
  | .publishDocument temporary name =>
    match w.documents name, w.documents temporary with
    | none, some bytes =>
      some (.ok (), (w.setDocument temporary none).setDocument name (some bytes))
    | _, _ => none
  | .exchangeDocument temporary name =>
    match w.documents temporary, w.documents name with
    | some a, some b =>
      some (.ok (), (w.setDocument temporary (some b)).setDocument name (some a))
    | _, _ => none
  | .removeDocument name =>
    match w.documents name with
    | some _ => some (.ok (), w.setDocument name none)
    | none => none
  | .dropDocument name => some (.ok (), w.setDocument name none)
  | .openTarget path => (site.lookup names w path).map fun found => (.ok found, w)
  | .fstat directory => some (.ok ⟨directory.fileIdentity, .directory, 0o700, euid, 0⟩, w)
  | .inspectPath path => (site.lookup names w path).map fun found =>
      (.ok (site.describing path found.1 found.2), w)
  | .newUuid =>
    match w.children (temporaryName (sampleUuid 0)) with
    | none => some (.ok (sampleUuid 0), w)
    | some _ => none
  | .statat name =>
    match w.children name with
    | some child => some (.ok child.stat, w)
    | none => some (.error .noent, w)
  | .renameNoreplace source target =>
    match w.children target, w.children source with
    | none, some child => some (.ok (), (w.setChild source none).setChild target (some child))
    | _, _ => none
  | .rmdir name => (w.folder? name).bind fun folder =>
      if folder.contents = site.empty then some (.ok (), w.setChild name none) else none
  | .removeContents directory _ =>
    (names.find? fun name => decide ((site.path name).asBytes = directory.path)).bind fun name =>
      (w.folder? name.bytes).bind fun folder =>
        if folder.identity = directory.identity ∧ folder.device = directory.device then
          some (.ok 0,
            w.setChild name.bytes (some (.folder { folder with contents := site.empty })))
        else none
  | .metadataDirectory => some (.ok true, w)
  | .dataRootLock | .layout | .validateDocument _ | .syncDocuments | .syncParent =>
    some (.ok (), w)
  | .mkdir _ => none

/-- Every directory of the world is private, as the ones that a preparation creates are. -/
def AllPrivate (w : World κ) : Prop :=
  ∀ name folder, w.folder? name = some folder → folder.isPrivate = true

/-- Every directory stays private when a private one is set, or something else. -/
theorem AllPrivate.setChild (h : AllPrivate w) {name : List UInt8} {child : Option (Child κ)}
    (hchild : ∀ folder, child = some (.folder folder) → folder.isPrivate = true) :
    AllPrivate (w.setChild name child) := by
  intro other folder hfolder
  by_cases hother : other = name
  · subst hother
    have hset := World.children_of_folder? _ hfolder
    rw [World.children_setChild_self] at hset
    exact hchild folder hset
  · rw [World.folder?_setChild_of_ne w child hother] at hfolder
    exact h other folder hfolder

/-- Every directory stays private when an entry is removed. -/
theorem AllPrivate.removeChild (h : AllPrivate w) (name : List UInt8) :
    AllPrivate (w.setChild name none) :=
  h.setChild fun _ hnone => absurd hnone.symm (Option.some_ne_none _)

/-- Whether every directory is private depends on the entries alone. -/
theorem AllPrivate.of_children (h : AllPrivate w) (hsame : w'.children = w.children) :
    AllPrivate w' := fun name folder hfolder =>
  h name folder ((World.folder?_congr w (congrFun hsame name)).symm.trans hfolder)

section Steps

variable [DecidableEq κ] {α : Type}

/-- **An answer is a step of a quiet world**, where all directories are private and whatever they
hold can be removed; and they stay private.  There is one case for each call.  The calls that only
read give back the state they were asked in; those that write give the state their effect
describes, and their guard is what the step relation asks for. -/
theorem quiet_answer (hremovable : ∀ contents, site.removable contents) (hw : AllPrivate w)
    {c : LifecycleCall} {r : c.Result} (h : answer euid site names w c = some (r, w')) :
    (quiet euid site).step w c r w' ∧ AllPrivate w' := by
  cases c
  case readDocument name =>
    obtain ⟨rfl, rfl⟩ := Prod.mk.inj (Option.some.inj h)
    exact ⟨⟨⟨rfl, rfl⟩, fun _ => trivial⟩, hw⟩
  case stageDocument stem bytes =>
    simp only [answer] at h
    split at h
    · rename_i hfree
      obtain ⟨rfl, rfl⟩ := Prod.mk.inj (Option.some.inj h)
      exact ⟨⟨⟨sampleUuid 0, rfl, hfree, rfl⟩, fun _ => trivial⟩, hw.of_children rfl⟩
    · cases h
  case publishDocument temporary name =>
    simp only [answer] at h
    split at h
    · rename_i bytes hname htemporary
      obtain ⟨rfl, rfl⟩ := Prod.mk.inj (Option.some.inj h)
      exact ⟨⟨⟨hname, bytes, htemporary, rfl⟩, fun _ => trivial⟩, hw.of_children rfl⟩
    · cases h
  case exchangeDocument temporary name =>
    simp only [answer] at h
    split at h
    · rename_i a b htemporary hname
      obtain ⟨rfl, rfl⟩ := Prod.mk.inj (Option.some.inj h)
      exact ⟨⟨⟨a, b, htemporary, hname, rfl⟩, fun _ => trivial⟩, hw.of_children rfl⟩
    · cases h
  case removeDocument name =>
    simp only [answer] at h
    split at h
    · rename_i bytes hname
      obtain ⟨rfl, rfl⟩ := Prod.mk.inj (Option.some.inj h)
      refine ⟨⟨⟨?_, rfl⟩, fun _ => trivial⟩, hw.of_children rfl⟩
      rw [hname]
      exact Option.some_ne_none bytes
    · cases h
  case dropDocument name =>
    obtain ⟨rfl, rfl⟩ := Prod.mk.inj (Option.some.inj h)
    exact ⟨⟨.inr rfl, fun _ => trivial⟩, hw.of_children rfl⟩
  case openTarget path =>
    obtain ⟨found, hfound, he⟩ := Option.map_eq_some_iff.mp h
    obtain ⟨rfl, rfl⟩ := Prod.mk.inj he
    exact ⟨⟨⟨rfl, Site.at_of_lookup hfound⟩, fun _ => trivial⟩, hw⟩
  case fstat directory =>
    obtain ⟨rfl, rfl⟩ := Prod.mk.inj (Option.some.inj h)
    refine ⟨⟨⟨rfl, rfl, fun name folder hstands => ?_⟩, fun _ => trivial⟩, hw⟩
    rw [hw _ _ hstands.named]
    simp [isPrivateDirectory]
  case inspectPath path =>
    obtain ⟨found, hfound, he⟩ := Option.map_eq_some_iff.mp h
    obtain ⟨rfl, rfl⟩ := Prod.mk.inj he
    exact ⟨⟨rfl, fun _ => ⟨found.1, found.2, Site.at_of_lookup hfound,
      site.describes_describing path found.1 found.2⟩⟩, hw⟩
  case newUuid =>
    simp only [answer] at h
    split at h
    · rename_i hfree
      obtain ⟨rfl, rfl⟩ := Prod.mk.inj (Option.some.inj h)
      exact ⟨⟨rfl, fun _ _ _ => hfree⟩, hw⟩
    · cases h
  case statat name =>
    simp only [answer] at h
    split at h
    · rename_i child hchild
      obtain ⟨rfl, rfl⟩ := Prod.mk.inj (Option.some.inj h)
      exact ⟨⟨⟨rfl, child, hchild, child.shows_stat⟩, fun _ => trivial⟩, hw⟩
    · rename_i hmissing
      obtain ⟨rfl, rfl⟩ := Prod.mk.inj (Option.some.inj h)
      refine ⟨⟨hmissing, .inl rfl, fun _ => ⟨rfl, ?_, rfl⟩⟩, hw⟩
      rintro ⟨stat, w'', ⟨-, child, hchild, -⟩, -⟩
      rw [hmissing] at hchild
      cases hchild
  case renameNoreplace source target =>
    simp only [answer] at h
    split at h
    · rename_i child htarget hsource
      obtain ⟨rfl, rfl⟩ := Prod.mk.inj (Option.some.inj h)
      refine ⟨⟨⟨htarget, child, hsource, rfl⟩, fun _ => trivial⟩, ?_⟩
      refine (hw.removeChild source).setChild fun folder hfolder => ?_
      obtain rfl := Option.some.inj hfolder
      exact hw source folder (w.folder?_of_children hsource)
    · cases h
  case rmdir name =>
    obtain ⟨folder, hfolder, h⟩ := Option.bind_eq_some_iff.mp h
    split at h
    · rename_i hempty
      obtain ⟨rfl, rfl⟩ := Prod.mk.inj (Option.some.inj h)
      exact ⟨⟨⟨⟨folder, hfolder, hempty⟩, rfl⟩, fun _ => trivial⟩, hw.removeChild name⟩
    · cases h
  case removeContents directory mount =>
    obtain ⟨name, hname, h⟩ := Option.bind_eq_some_iff.mp h
    obtain ⟨folder, hfolder, h⟩ := Option.bind_eq_some_iff.mp h
    split at h
    · rename_i hsame
      obtain ⟨rfl, rfl⟩ := Prod.mk.inj (Option.some.inj h)
      have hpath := List.find?_some hname
      rw [decide_eq_true_eq] at hpath
      refine ⟨⟨⟨name, folder, ⟨hpath.symm, hfolder, hsame.1, hsame.2⟩, hremovable _, rfl⟩,
        fun _ => trivial⟩, hw.setChild fun other hother => ?_⟩
      cases hother
      exact hw _ folder hfolder
    · cases h
  case metadataDirectory =>
    obtain ⟨rfl, rfl⟩ := Prod.mk.inj (Option.some.inj h)
    exact ⟨⟨rfl, fun _ => rfl⟩, hw⟩
  case mkdir => cases h
  all_goals
    obtain ⟨rfl, rfl⟩ := Prod.mk.inj (Option.some.inj h)
    exact ⟨⟨rfl, fun _ => trivial⟩, hw⟩

/-- The state in which a program is stopped after that many calls, or at its end if it makes
fewer. -/
def stopped (euid : UInt32) (site : Site κ) (names : List FileName) :
    ℕ → Handling α → World κ → Option (World κ)
  | 0, _, w => some w
  | _ + 1, .ret _, w => some w
  | _ + 1, .fail _, w => some w
  | calls + 1, .call c next, w =>
    (answer euid site names w c).bind fun given =>
      stopped euid site names calls (next given.1) given.2

/-- **A stopped program has made a run**: what it leaves after some answers is a state that a run
in a quiet world visits.  The induction is on the number of calls that are answered: a program that
has ended, or that is stopped, visits the state it is in. -/
theorem visits_stopped (hremovable : ∀ contents, site.removable contents) {calls : ℕ}
    {x : Handling α} (hw : AllPrivate w)
    (h : stopped euid site names calls x w = some w') :
    Visits (quiet euid site) x w w' ∧ AllPrivate w' := by
  induction calls generalizing x w with
  | zero =>
    obtain rfl := Option.some.inj h
    exact ⟨.here, hw⟩
  | succ calls ih =>
    cases x with
    | ret value =>
      obtain rfl := Option.some.inj h
      exact ⟨.here, hw⟩
    | fail error =>
      obtain rfl := Option.some.inj h
      exact ⟨.here, hw⟩
    | call c next =>
      obtain ⟨⟨r, middle⟩, hanswer, hrest⟩ := Option.bind_eq_some_iff.mp h
      obtain ⟨hstep, hmiddle⟩ := quiet_answer hremovable hw hanswer
      obtain ⟨hvisits, hw'⟩ := ih hmiddle hrest
      exact ⟨.later hstep hvisits, hw'⟩

end Steps

end Lifecycle
end ThinWorkspace
