/-
# The scope of a removal

`remove_root_contents` on both platforms, with other processes acting after every call.
`OnLinux.clears` and `OnMacOs.clears` are the inductions on the depth that is left, over
the rules of `Checks`.

`destroy_scope_and_count` is about every run: each entry that is removed was reached from
the root by names, on the device of the root, and nobody acted between the checks before it
and its removal; what is returned is the number of these entries.  That the root is empty
then is not promised: another process may have put something there since the last listing,
as `returns_with_entry` does.
-/

import ThinWorkspace.Destroy.Checks

namespace ThinWorkspace
namespace Destroy

open ThinWorkspace.Core Lib Ports Program
open Linux (Errno)
open Btrfs (Fd DirEntry ReadDirFailure sortedNames)
open Apfs (RawFileKind RawNodeMetadata)

variable {root : Fd} {top : Place} {rootIdentity : FileIdentity} {s : Scene}

/-- A listing whose sorted names are none has no name at all. -/
theorem filterMap_of_sortedNames {entries : List DirEntry} (h : sortedNames entries = []) :
    entries.filterMap DirEntry.name? = [] := by
  have hlength : (sortedNames entries).length = (entries.filterMap DirEntry.name?).length :=
    List.length_mergeSort _
  rw [h] at hlength
  exact List.length_eq_zero_iff.mp hlength.symm

/-! ### Linux

Each function of the Linux adapter meets its specification, and the recursion is an
induction on the depth that is left.  The checks directly before an unlink are the two
confirmations of one turn of the loop. -/

namespace OnLinux

/-- The kind that `node_from_stat` gives an object: everything but directories, files and links is
unsupported. -/
def kindOf : RawFileKind → Btrfs.NodeKind
  | .directory => .directory
  | .regularFile => .file
  | .symbolicLink => .symlink
  | _ => .unsupported

/-- What a `stat` shows of an object: its identity and its kind. -/
def Shows (node : Btrfs.Node) (object : Object) : Prop :=
  node.identity = object.identity ∧ node.kind = kindOf object.kind

variable {directory : Fd} {name : FileName} {expected : FileIdentity} {expectedMount : UInt64}

/-- A mount number on Linux is the one of the place that the handle has, as it was when the call
was made. -/
theorem ensures_mountId {fd : Fd} :
    Ensures Shows root True
      (fun mount s' => Looks s s' ∧ ∃ seen, s.world.held fd = some seen ∧ seen.place.mount = mount)
      (mountId fd) s := by
  refine Destroy.ensures_mountId.bind fun observed s' ⟨hlooks, hseen⟩ => ?_
  cases observed with
  | some mount => exact delivers_pure ⟨hlooks, hseen mount rfl⟩
  | none => exact delivers_throw

/-- A mount number of a name is the one of what the name designated when the call was made. -/
theorem ensures_mountIdAt {fd : Fd} :
    Ensures Shows root True
      (fun mount s' => Looks s s' ∧
        ∃ seen, s.world.named fd name = some seen ∧ seen.place.mount = mount)
      (mountIdAt fd name) s := by
  refine Destroy.ensures_mountIdAt.bind fun observed s' ⟨hlooks, hseen⟩ => ?_
  cases observed with
  | some mount => exact delivers_pure ⟨hlooks, hseen mount rfl⟩
  | none => exact delivers_throw

/-- The handle is one of the expected directory, on the expected mount. -/
theorem ensures_requireDirectory :
    Ensures Shows root True
      (fun _ s' => Looks s s' ∧ ∃ place, s'.world.Holds directory place expected ∧
        place.mount = expectedMount)
      (requireDirectory directory expected expectedMount) s := by
  refine ensures_stat.bind fun current s₁ ⟨hlooks, seen, hheld, hshows⟩ => ?_
  refine ensures_mountId.bind fun mount s₂ ⟨hlooks', seen', hheld', hmount⟩ => ?_
  refine ensures_require.mono fun _ s₃ ⟨⟨_, hidentity, hexpected⟩, hs₃⟩ => ?_
  subst hs₃
  have hholds : s₁.world.Holds directory seen.place expected := by
    rw [← hidentity, hshows.1]
    exact hlooks.keeps _ _ _ (World.Holds.of_held hheld)
  refine ⟨hlooks.trans hlooks', seen.place, hlooks'.keeps _ _ _ hholds, ?_⟩
  rw [← (hholds.eq hheld').1, hmount, hexpected]

/-- What a checked entry tells: its device, and where nothing changed, what its name
designates. -/
theorem ensures_checkedEntry :
    Ensures Shows root True
      (fun entry s' => Looks s s' ∧ entry.identity.device = expected.device ∧
        (s'.steady = true → ∃ seen, s'.world.named directory name = some seen ∧
          seen.object.identity = entry.identity ∧ seen.place.mount = expectedMount))
      (checkedEntry directory name expected expectedMount) s := by
  refine ensures_requireDirectory.bind fun _ s₁ ⟨hfirst, _⟩ => ?_
  refine ensures_statAt.bind fun entry s₂ ⟨hstat, seen, hnamed, hshows⟩ => ?_
  refine ensures_mountIdAt.bind fun mount s₃ ⟨hlooks, seen', hnamed', hmount⟩ => ?_
  refine ensures_require.bind fun _ s₄ ⟨⟨hdevice, hexpected⟩, hs₄⟩ => delivers_pure ?_
  subst hs₄
  refine ⟨(hfirst.trans hstat).trans hlooks, hdevice, fun hsteady => ⟨seen, ?_, ?_, ?_⟩⟩
  · rw [((hstat.trans hlooks).steady hsteady).2]
    exact hnamed
  · exact hshows.1.symm
  · rw [(hstat.steady (hlooks.steady hsteady).1).2] at hnamed'
    rw [Option.some.inj (hnamed.symm.trans hnamed'), hmount, hexpected]

/-- `require_unchanged` on Linux confirms that the name designates the object that was seen before,
on the mount of the root. -/
theorem confirms_requireUnchanged {w : World} {before : Btrfs.Node} :
    Confirms Shows root True w directory name (AsSeen True top before.identity)
      (requireUnchanged directory name expected top.mount before) := by
  intro s _
  refine ensures_checkedEntry.bind fun current s₁ ⟨hlooks, _, hnamed⟩ => ?_
  refine ensures_require.mono fun _ s₂ ⟨⟨hidentity, _⟩, hs₂⟩ => ?_
  subst hs₂
  refine ⟨hlooks, fun hsteady => ?_⟩
  obtain ⟨seen, hseen, hsame, hmount⟩ := hnamed hsteady
  exact ⟨seen, hseen, hsame.trans hidentity, fun _ => hmount⟩

/-- A listing without names is one of an empty directory. -/
theorem ensures_directoryNames {place : Place} {identity : FileIdentity}
    (h : s.world.Holds directory place identity) :
    Ensures Shows root True
      (fun names s' => Advances 0 s s' ∧ (names = [] → Emptied directory place identity s'))
      (directoryNames directory) s := by
  refine (ensures_readDirectory h).bind fun entries s' ⟨hadvances, hempty⟩ => ?_
  exact delivers_pure ⟨hadvances, fun hnames => hempty (filterMap_of_sortedNames hnames)⟩

/-- One turn of the loop removes what it counts. -/
theorem ensures_removeEntry {removeContents : Fd → FileIdentity → Removal Unit → Removal ℕ}
    {verifyScope : Removal Unit} {removed : ℕ}
    (hclears : Clears Shows root True top rootIdentity removeContents)
    (hroot : s.world.Holds root top rootIdentity) (hdevice : expected.device = rootIdentity.device)
    (hverify : Verifies Shows root True s.world directory verifyScope) :
    Ensures Shows root True (fun total s' => ∃ n, total = removed + n ∧ Advances n s s')
      (removeEntry removeContents directory expected top.mount verifyScope removed name) s := by
  refine (hverify s (World.Keeps.refl _)).bind fun _ s₁ ⟨hscope, _⟩ => ?_
  refine ensures_requireDirectory.bind fun _ s₂ ⟨hlooks, _⟩ => ?_
  refine ensures_checkedEntry.bind fun before s₃ ⟨hlooks', hbefore, _⟩ => ?_
  refine ensures_require.bind fun _ s₄ ⟨_, hs₄⟩ => ?_
  subst hs₄
  have hstart : Advances 0 s s₄ := hscope.trans (hlooks.trans hlooks').advances
  have hcheck (w : World) : Confirms Shows root True w directory name
      (AsSeen True top before.identity)
      (requireUnchanged directory name expected top.mount before) := confirms_requireUnchanged
  have hbelow : Ensures Shows root True
      (fun total s' => ∃ n, total = removed + n ∧ Advances n s₄ s' ∧
        (before.kind = .directory → FoundEmpty s'.history before.identity))
      (removeBelow removeContents directory expected top.mount verifyScope name before removed)
      s₄ := by
    unfold removeBelow
    split
    · refine (ensures_below hclears (fun child s => ?_) (hstart.keeps _ _ _ hroot)
        (hbefore.trans hdevice) (hverify.mono hstart.keeps) (hcheck _)).mono ?_
      · exact ensures_requireDirectory.mono fun _ s' ⟨h, place, hholds, _⟩ =>
          ⟨h, place, hholds⟩
      · exact fun total s' ⟨n, htotal, hn, hfound⟩ => ⟨n, htotal, hn, fun _ => hfound⟩
    · rename_i hkind
      exact delivers_pure ⟨0, rfl, (Looks.refl s₄).advances, fun h => absurd h hkind⟩
  refine hbelow.bind fun total s₅ ⟨n, htotal, hn, hfound⟩ => ?_
  have hall : Advances n s s₅ := hn.after hstart
  refine (ensures_removal (hall.keeps _ _ _ hroot) (hbefore.trans hdevice)
    (hverify.mono hall.keeps) (hcheck _) fun h => hfound (of_decide_eq_true h)).mono ?_
  intro total' s₆ ⟨htotal', hone⟩
  exact ⟨n + 1, by rw [htotal', htotal, Nat.add_assoc], hall.trans hone⟩

/-- **The induction on the depth that is left**, on Linux: a directory is emptied below the names
that lead to it, and every removal is counted. -/
theorem clears (levels : ℕ) :
    Clears Shows root True top rootIdentity (removeDirectoryContents top.mount levels) := by
  induction levels with
  | zero =>
    intro s directory place identity verifyScope _ _ _ _
    exact delivers_throw
  | succ levels ih =>
    intro s directory place identity verifyScope hroot hholds hdevice hverify
    refine ensures_requireDirectory.bind fun _ s₁ ⟨hfirst, _⟩ => ?_
    refine (ensures_directoryNames (hfirst.keeps _ _ _ hholds)).bind fun names s₂ ⟨hlist, _⟩ => ?_
    have hstart : Advances 0 s s₂ := hfirst.advances.trans hlist
    refine (ensures_names (fun removed name s' hs' => ?_) names).bind fun removed s₃ hloop => ?_
    · have hkeeps : s.world.Keeps s'.world := hstart.keeps.trans hs'
      exact ensures_removeEntry ih (hkeeps _ _ _ hroot) hdevice (hverify.mono hkeeps)
    have hloop' : Advances removed s s₃ := hloop.after hstart
    refine (hverify s₃ hloop'.keeps).bind fun _ s₄ ⟨hscope, _⟩ => ?_
    refine ensures_requireDirectory.bind fun _ s₅ ⟨hlooks, _⟩ => ?_
    have hlast : Advances removed s s₅ := hloop'.trans (hscope.trans hlooks.advances)
    refine (ensures_directoryNames (hlast.keeps _ _ _ hholds)).bind
      fun left s₆ ⟨hleft, hempty⟩ => ?_
    refine ensures_require.bind fun _ s₇ ⟨hnone, hs₇⟩ => ?_
    subst hs₇
    refine ensures_sync.bind fun _ s₈ hsync => ?_
    have hend : Advances removed s s₈ := (hlast.trans hleft).trans hsync.advances
    exact delivers_pure ⟨hend, hsync.emptied (hempty hnone)⟩

end OnLinux

/-! ### macOS

The same for macOS, where nothing is said of mounts. -/

namespace OnMacOs

/-- What a `stat` shows of an object: on this platform the kind is the one of the object itself. -/
def Shows (metadata : RawNodeMetadata) (object : Object) : Prop :=
  fileIdentity metadata = object.identity ∧ metadata.kind = object.kind

variable {directory : Fd} {name : FileName} {expected : FileIdentity}

/-- The handle is one of the expected directory, in the world as it is behind the check. -/
theorem ensures_requireHeld :
    Ensures Shows root False
      (fun _ s' => Looks s s' ∧ ∃ place, s'.world.Holds directory place expected)
      (requireHeld directory expected) s := by
  refine ensures_stat.bind fun metadata s₁ ⟨hlooks, seen, hheld, hshows⟩ => ?_
  refine ensures_require.mono fun _ s₂ ⟨⟨_, hidentity⟩, hs₂⟩ => ?_
  subst hs₂
  have hholds : s.world.Holds directory seen.place expected := by
    rw [← hidentity, hshows.1]
    exact World.Holds.of_held hheld
  exact ⟨hlooks, seen.place, hlooks.keeps _ _ _ hholds⟩

/-- `require_unchanged` on macOS confirms that the name designates the object with the expected
identity. -/
theorem confirms_requireUnchanged {w : World} :
    Confirms Shows root False w directory name (AsSeen False top expected)
      (requireUnchanged directory name expected) := by
  intro s _
  refine ensures_statAt.bind fun metadata s₁ ⟨hlooks, seen, hnamed, hshows⟩ => ?_
  refine ensures_require.mono fun _ s₂ ⟨hidentity, hs₂⟩ => ?_
  subst hs₂
  refine ⟨hlooks, fun hsteady => ⟨seen, ?_, hshows.1.symm.trans hidentity, False.elim⟩⟩
  rw [(hlooks.steady hsteady).2]
  exact hnamed

/-- A listing without names is one of an empty directory. -/
theorem ensures_readDirectory {place : Place} {identity : FileIdentity}
    (h : s.world.Holds directory place identity) :
    Ensures Shows root False
      (fun names s' => Advances 0 s s' ∧ (names = [] → Emptied directory place identity s'))
      (readDirectory directory) s := by
  refine (Destroy.ensures_readDirectory h).bind fun entries s' ⟨hadvances, hempty⟩ => ?_
  exact delivers_pure ⟨hadvances, fun hnames => hempty (filterMap_of_sortedNames hnames)⟩

/-- One turn of the loop removes what it counts. -/
theorem ensures_removeEntry {removeContents : Fd → FileIdentity → Removal Unit → Removal ℕ}
    {verifyScope : Removal Unit} {removed : ℕ}
    (hclears : Clears Shows root False top rootIdentity removeContents)
    (hroot : s.world.Holds root top rootIdentity)
    (hverify : Verifies Shows root False s.world directory verifyScope) :
    Ensures Shows root False (fun total s' => ∃ n, total = removed + n ∧ Advances n s s')
      (removeEntry removeContents directory expected rootIdentity.device verifyScope removed name)
      s := by
  refine (hverify s (World.Keeps.refl _)).bind fun _ s₁ ⟨hscope, _⟩ => ?_
  refine ensures_requireHeld.bind fun _ s₂ ⟨hlooks, _⟩ => ?_
  refine ensures_statAt.bind fun before s₃ ⟨hlooks', _⟩ => ?_
  refine ensures_require.bind fun _ s₄ ⟨hbefore, hs₄⟩ => ?_
  subst hs₄
  have hstart : Advances 0 s s₄ := hscope.trans (hlooks.trans hlooks').advances
  have hbelow : Ensures Shows root False
      (fun total s' => ∃ n, total = removed + n ∧ Advances n s₄ s' ∧
        (before.kind = .directory → FoundEmpty s'.history (fileIdentity before)))
      (removeBelow removeContents directory verifyScope name before removed) s₄ := by
    unfold removeBelow
    split
    · refine (ensures_below hclears (fun child s => ?_) (hstart.keeps _ _ _ hroot) hbefore
        (hverify.mono hstart.keeps) confirms_requireUnchanged).mono ?_
      · exact ensures_requireHeld
      · exact fun total s' ⟨n, htotal, hn, hfound⟩ => ⟨n, htotal, hn, fun _ => hfound⟩
    · rename_i hkind
      exact delivers_pure ⟨0, rfl, (Looks.refl s₄).advances, fun h => absurd h hkind⟩
  refine hbelow.bind fun total s₅ ⟨n, htotal, hn, hfound⟩ => ?_
  have hall : Advances n s s₅ := hn.after hstart
  have hcheck : Confirms Shows root False s₅.world directory name
      (AsSeen False top (fileIdentity before))
      (requireUnchangedIn directory expected name (fileIdentity before)) :=
    .after (fun s => ensures_requireHeld.mono fun _ s' h => h.1) confirms_requireUnchanged
  refine (ensures_removal (hall.keeps _ _ _ hroot) hbefore (hverify.mono hall.keeps) hcheck
    fun h => hfound (of_decide_eq_true h)).mono ?_
  intro total' s₆ ⟨htotal', hone⟩
  exact ⟨n + 1, by rw [htotal', htotal, Nat.add_assoc], hall.trans hone⟩

/-- **The induction on the depth that is left**, on macOS, where devices are compared and mounts
are not. -/
theorem clears (levels : ℕ) :
    Clears Shows root False top rootIdentity
      (removeDirectoryContents rootIdentity.device levels) := by
  induction levels with
  | zero =>
    intro s directory place identity verifyScope _ _ _ _
    exact delivers_throw
  | succ levels ih =>
    intro s directory place identity verifyScope hroot hholds _ hverify
    refine ensures_requireHeld.bind fun _ s₁ ⟨hfirst, _⟩ => ?_
    refine (ensures_readDirectory (hfirst.keeps _ _ _ hholds)).bind fun names s₂ ⟨hlist, _⟩ => ?_
    have hstart : Advances 0 s s₂ := hfirst.advances.trans hlist
    refine (ensures_names (fun removed name s' hs' => ?_) names).bind fun removed s₃ hloop => ?_
    · have hkeeps : s.world.Keeps s'.world := hstart.keeps.trans hs'
      exact ensures_removeEntry ih (hkeeps _ _ _ hroot) (hverify.mono hkeeps)
    refine ensures_requireHeld.bind fun _ s₄ ⟨hlooks, _⟩ => ?_
    have hlast : Advances removed s s₄ := (hloop.after hstart).trans hlooks.advances
    refine (ensures_readDirectory (hlast.keeps _ _ _ hholds)).bind fun left s₅ ⟨hleft, hempty⟩ => ?_
    refine ensures_require.bind fun _ s₆ ⟨hnone, hs₆⟩ => ?_
    subst hs₆
    have hend : Advances removed s s₆ := hlast.trans hleft
    exact delivers_pure ⟨hend, hempty hnone⟩

end OnMacOs

/-! ### The history of a run

The history of a run is in scope at every moment, complete or stopped, and a removal that
returns counted what it removed and saw its root empty last.  `Destroys` states this of any
program, without regard to how its checks are made. -/

/-- The scene a removal begins in: nothing has been found empty or removed yet. -/
def Scene.start (w : World) : Scene := ⟨w, true, []⟩

section History

variable {N E : Type} {shows : N → Object → Prop} {compareMounts : Prop} {s' : Scene}

/-- A careful call keeps the history in scope: what it adds is a removal that its guard allows, or
none.  Only a removal and a listing without a name add a moment, and it is the guard of the removal
that says what the moment needs. -/
theorem Scoped.step {c : DestroyCall} {r : c.Result N E} (h : Scoped root compareMounts s.history)
    (hcareful : careful root compareMounts c s) (hstep : Steps shows s c r s') :
    Scoped root compareMounts s'.history := by
  have hsame (hmoments : moments s c r = []) : Scoped root compareMounts s'.history := by
    rw [hstep.history, hmoments]
    exact h
  cases c with
  | readDirectory d =>
    cases r with
    | error e => exact hsame rfl
    | ok entries =>
      intro directory name removeDirectory w earlier hsuffix
      rw [hstep.history, moments] at hsuffix
      split at hsuffix
      · rcases List.suffix_cons_iff.mp hsuffix with he | hsuffix
        · cases he
        · exact h _ _ _ _ _ hsuffix
      · exact h _ _ _ _ _ hsuffix
  | unlink d n flag =>
    cases r with
    | error e => exact hsame rfl
    | ok u =>
      intro directory name removeDirectory w earlier hsuffix
      rw [hstep.history, moments] at hsuffix
      rcases List.suffix_cons_iff.mp hsuffix with he | hsuffix
      · obtain ⟨hmoment, rfl⟩ := List.cons.inj he
        obtain ⟨rfl, rfl, rfl, hsteady, rfl⟩ := Moment.removed.inj hmoment
        obtain ⟨_, ⟨⟨seen, hremovable⟩, -⟩, -⟩ := hstep.cases
        obtain ⟨seen', hscope, hfound⟩ := hcareful hsteady.symm
        obtain rfl : seen = seen' :=
          Option.some.inj (hremovable.named.symm.trans hscope.named)
        exact ⟨seen, hscope, hremovable, hfound⟩
      · exact h _ _ _ _ _ hsuffix
  | verifyScope => exact hsame rfl
  | openDirectory parent name => exact hsame rfl
  | close fd => exact hsame rfl
  | stat fd => exact hsame rfl
  | statAt parent name => exact hsame rfl
  | mountId fd => exact hsame rfl
  | mountIdAt parent name => exact hsame rfl
  | sync directory => exact hsame rfl

/-- A removal of what lies in `root`, from any world and with anything others do.  However
far it gets, what it removed was in scope, unless others acted between the removal and the
checks directly before it.  Where it returns a number, that many entries were removed, and the
last thing it found is that the root was empty. -/
structure Destroys {ε : Type} (shows : N → Object → Prop) (root : Fd) (compareMounts : Prop)
    (x : Removing N E ε ℕ) (w : World) : Prop where
  scope : ∀ s, Visits (disturbed shows) x (.start w) s → Scoped root compareMounts s.history
  count : ∀ n s, Returns (disturbed shows) x (.start w) (.ok n) s →
    s.history.countP Moment.isRemoval = n
  empty : ∀ n s, Returns (disturbed shows) x (.start w) (.ok n) s →
    ∃ w' earlier seen, s.history = .emptied root w' :: earlier ∧
      w'.held root = some seen ∧ seen.object.entries = []

/-- What the rules ensure of a removal makes it one that destroys in scope.  The first part is the
invariant of the moments along the run, and the second one what the rules say at its end. -/
theorem Destroys.of_ensures {ε : Type} {x : Removing N E ε ℕ} {w : World}
    (h : Ensures shows root compareMounts
      (fun n s => Advances n (.start w) s ∧ ∃ place identity, Emptied root place identity s)
      x (.start w)) : Destroys shows root compareMounts x w where
  scope := by
    intro s run
    refine Safe.of_visits (fun s => Scoped root compareMounts s.history) h ?_ ?_ run
    · intro directory name removeDirectory w earlier hsuffix
      cases List.suffix_nil.mp hsuffix
    · exact fun s c r s' hcareful hscoped hstep => hscoped.step hcareful hstep
  count := by
    intro n s run
    obtain ⟨⟨-, new, hnew, hcount⟩, -⟩ := h.of_returns run n rfl
    rw [hnew]
    change (new ++ []).countP Moment.isRemoval = n
    rw [List.append_nil, hcount]
  empty := by
    intro n s run
    obtain ⟨-, place, identity, w', earlier, hhistory, hholds, hentries⟩ := h.of_returns run n rfl
    obtain ⟨object, hheld, -⟩ := hholds
    exact ⟨w', earlier, _, hhistory, hheld, hentries _ hheld⟩

end History

/-- The removal of a root's contents on Linux counts what it removed, and ends behind an empty
listing of the root. -/
theorem OnLinux.ensures_removeRootContents (w : World) (expected : FileIdentity)
    (expectedMount : UInt64) :
    Ensures OnLinux.Shows root True
      (fun n s => Advances n (.start w) s ∧ ∃ place identity, Emptied root place identity s)
      (OnLinux.removeRootContents root expected expectedMount) (.start w) := by
  refine (verifies_callerScope w _ (World.Keeps.refl w)).bind fun _ s₁ ⟨hscope, _⟩ => ?_
  refine ensures_requireDirectory.bind fun _ s₂ ⟨hlooks, place, hholds, hmount⟩ => ?_
  subst hmount
  refine (clears _ s₂ root place expected _ hholds hholds rfl (verifies_callerScope _)).mono ?_
  intro n s₃ ⟨hn, hempty⟩
  have hall : Advances n (.start w) s₃ := hn.after (hscope.trans hlooks.advances)
  exact ⟨hall, place, expected, hempty⟩

/-- The removal of a root's contents on macOS does the same. -/
theorem OnMacOs.ensures_removeRootContents (w : World) (expected : FileIdentity) :
    Ensures OnMacOs.Shows root False
      (fun n s => Advances n (.start w) s ∧ ∃ place identity, Emptied root place identity s)
      (OnMacOs.removeRootContents root expected) (.start w) := by
  refine (verifies_callerScope w _ (World.Keeps.refl w)).bind fun _ s₁ ⟨hscope, _⟩ => ?_
  rw [← Program.bind_assoc]
  refine ensures_requireHeld.bind fun _ s₂ ⟨hlooks, place, hholds⟩ => ?_
  refine (clears _ s₂ root place expected _ hholds hholds rfl (verifies_callerScope _)).mono ?_
  intro n s₃ ⟨hn, hempty⟩
  have hall : Advances n (.start w) s₃ := hn.after (hscope.trans hlooks.advances)
  exact ⟨hall, place, expected, hempty⟩

/-- **A removal stays below its root, and counts.**  On Linux the mounts are compared as
well as the devices. -/
theorem destroy_scope_and_count :
    (∀ (w : World) (root : Fd) (expected : FileIdentity) (expectedMount : UInt64),
      Destroys OnLinux.Shows root True
        (OnLinux.removeRootContents root expected expectedMount) w) ∧
    (∀ (w : World) (root : Fd) (expected : FileIdentity),
      Destroys OnMacOs.Shows root False (OnMacOs.removeRootContents root expected) w) :=
  ⟨fun w _ expected expectedMount =>
    .of_ensures (OnLinux.ensures_removeRootContents w expected expectedMount),
    fun w _ expected => .of_ensures (OnMacOs.ensures_removeRootContents w expected)⟩

/-! ### A world that answers

A world whose answers are computed, so that runs of both adapters can be evaluated; what
other processes do is a parameter. -/

section Answers

variable {N E : Type}

/-- What is seen, or an error where nothing is. -/
def found {α : Type} (error : Errno) (f : Sight → α) : Option Sight → Except Errno α
  | some seen => .ok (f seen)
  | none => .error error

/-- What was found has been seen: a success is the sight of an object. -/
theorem found_ok {α : Type} {error : Errno} {f : Sight → α} {o : Option Sight} {a : α}
    (h : found error f o = .ok a) : ∃ seen, o = some seen ∧ f seen = a := by
  cases o with
  | some seen => exact ⟨seen, rfl, Except.ok.inj h⟩
  | none => cases h

/-- `EBADF`, for what is not held: a call on such a handle fails. -/
def ebadf : Errno := .other 9

/-- `EBUSY`, for what cannot be removed, such as a mount point. -/
def ebusy : Errno := .other 16

/-- A new handle has the number behind that of the directory above it. -/
def answerOpen (w : World) (parent : Fd) (name : FileName) : Except Errno Fd × World :=
  match w.named parent name with
  | some seen =>
    if seen.object.kind ≠ .symbolicLink ∧ w.handles (parent + 1) = none then
      (.ok (parent + 1), w.hold (parent + 1) seen.place)
    else (.error ebusy, w)
  | none => (.error .noent, w)

/-- The names of a held directory, all of them and in its own order. -/
def answerRead (w : World) (directory : Fd) : Except ReadDirFailure (List DirEntry) :=
  match w.held directory with
  | some seen => .ok (seen.object.entries.map (.named ·.1))
  | none => .error (.enumerate ebadf)

/-- What can be removed is: an entry that is of the kind to be removed and, if it is a directory,
empty. -/
def answerUnlink (w : World) (parent : Fd) (name : FileName) (removeDirectory : Bool) :
    Except Errno Unit × World :=
  match w.named parent name with
  | some seen =>
    if (w.handles parent).bind (w.entry · name) = some seen.place ∧
        (seen.object.kind = .directory ↔ removeDirectory = true) ∧
        (removeDirectory = true → seen.object.entries = []) then
      (.ok (), w.unlinked parent name)
    else (.error ebusy, w)
  | none => (.error .noent, w)

/-- What the file system answers where it can; `nodeOf` is its `stat` of an object. -/
def answer (nodeOf : Object → N) (w : World) : (c : DestroyCall) → c.Result N E × World
  | .verifyScope => (.ok (), w)
  | .openDirectory parent name => answerOpen w parent name
  | .close fd => ((), w.release fd)
  | .stat fd => (found ebadf (nodeOf ·.object) (w.held fd), w)
  | .statAt parent name => (found .noent (nodeOf ·.object) (w.named parent name), w)
  | .mountId fd => (found ebadf (some ·.place.mount) (w.held fd), w)
  | .mountIdAt parent name => (found .noent (some ·.place.mount) (w.named parent name), w)
  | .readDirectory directory => (answerRead w directory, w)
  | .unlink parent name removeDirectory => answerUnlink w parent name removeDirectory
  | .sync _ => (.ok (), w)

/-- The answers of the sample world are what its calls perform.  There is one case for each call.
-/
theorem performs_answer {shows : N → Object → Prop} {nodeOf : Object → N}
    (hshows : ∀ object, shows (nodeOf object) object) (w : World) (c : DestroyCall) :
    Performs shows w c (answer (E := E) nodeOf w c).1 (answer (E := E) nodeOf w c).2 := by
  cases c with
  | verifyScope => rfl
  | close fd => rfl
  | sync directory => rfl
  | openDirectory parent name =>
    change Performs (E := E) shows w (.openDirectory parent name) (answerOpen w parent name).1
      (answerOpen w parent name).2
    unfold answerOpen
    split
    · rename_i seen hnamed
      split
      · rename_i hfree
        exact ⟨seen, hnamed, hfree.1, hfree.2, rfl⟩
      · rfl
    · rfl
  | stat fd =>
    refine ⟨rfl, fun node h => ?_⟩
    obtain ⟨seen, hheld, rfl⟩ := found_ok h
    exact ⟨seen, hheld, hshows _⟩
  | statAt parent name =>
    refine ⟨rfl, fun node h => ?_⟩
    obtain ⟨seen, hnamed, rfl⟩ := found_ok h
    exact ⟨seen, hnamed, hshows _⟩
  | mountId fd =>
    refine ⟨rfl, fun mount h => ?_⟩
    obtain ⟨seen, hheld, hmount⟩ := found_ok h
    exact ⟨seen, hheld, Option.some.inj hmount⟩
  | mountIdAt parent name =>
    refine ⟨rfl, fun mount h => ?_⟩
    obtain ⟨seen, hnamed, hmount⟩ := found_ok h
    exact ⟨seen, hnamed, Option.some.inj hmount⟩
  | readDirectory directory =>
    refine ⟨rfl, fun entries h hnone => ?_⟩
    change answerRead w directory = .ok entries at h
    unfold answerRead at h
    split at h
    · rename_i seen hheld
      cases h
      rw [List.filterMap_map] at hnone
      exact ⟨seen, hheld, by simpa [Function.comp_def, DirEntry.name?] using hnone⟩
    · cases h
  | unlink parent name removeDirectory =>
    change Performs (E := E) shows w (.unlink parent name removeDirectory)
      (answerUnlink w parent name removeDirectory).1 (answerUnlink w parent name removeDirectory).2
    unfold answerUnlink
    split
    · rename_i seen hnamed
      split
      · rename_i hremovable
        obtain ⟨huncovered, hkind, hempty⟩ := hremovable
        exact ⟨⟨seen, hnamed, huncovered, hkind, hempty⟩, rfl⟩
      · rfl
    · rfl

/-- The scene behind a call; `others` is what other processes do then. -/
def respond (nodeOf : Object → N) (others : DestroyCall → Scene → Option World) (s : Scene)
    (c : DestroyCall) : c.Result N E × Scene :=
  let performed := answer nodeOf s.world c
  let history := moments s c performed.1 ++ s.history
  match others c s with
  | some w => (performed.1, ⟨w, !c.checks, history⟩)
  | none => (performed.1, ⟨performed.2, s.steady || c.begins, history⟩)

/-- The answers are steps of a disturbed world, with what others do after them. -/
theorem steps_respond {shows : N → Object → Prop} {nodeOf : Object → N}
    {others : DestroyCall → Scene → Option World} (hshows : ∀ object, shows (nodeOf object) object)
    (hothers : ∀ s c w, others c s = some w → (answer (E := E) nodeOf s.world c).2.Alters w)
    (s : Scene) (c : DestroyCall) :
    (disturbed shows).step s c (respond (E := E) nodeOf others s c).1
      (respond (E := E) nodeOf others s c).2 := by
  unfold respond
  split
  · rename_i w hw
    exact ⟨rfl, _, performs_answer hshows s.world c, .inr ⟨hothers s c w hw, rfl⟩⟩
  · exact ⟨rfl, _, performs_answer hshows s.world c, .inl ⟨rfl, rfl⟩⟩

end Answers

/-! ### A root that is filled again

Another process puts a file into the root behind the last listing.  The call returns with a
success and an entry in the root, which the statement above allows and no stronger one
would. -/

/-- The `stat` of an object on Linux, as far as a removal compares it. -/
def OnLinux.nodeOf (object : Object) : Btrfs.Node where
  device := object.device
  inode := object.inode
  kind := kindOf object.kind
  mode := 0
  size := 0
  blocks := 0
  mtimeSeconds := 0
  mtimeNanoseconds := 0

/-- That `stat` shows its object, by its identity and its kind. -/
theorem OnLinux.shows_nodeOf (object : Object) : Shows (nodeOf object) object := ⟨rfl, rfl⟩

/-- The `stat` of an object on macOS, as far as a removal compares it. -/
def OnMacOs.nodeOf (object : Object) : RawNodeMetadata where
  device := object.device
  inode := object.inode
  kind := object.kind
  mode := 0
  size := 0
  allocatedBytes := 0
  modifiedSeconds := 0
  modifiedNanoseconds := 0

/-- That `stat` shows its object, by its identity and its kind. -/
theorem OnMacOs.shows_nodeOf (object : Object) : Shows (nodeOf object) object := ⟨rfl, rfl⟩

section Refilled

/-- Objects whose identities differ are told apart by them. -/
theorem identified_of_nodup {objects : List Object} (h : (objects.map Object.identity).Nodup)
    (i j : ℕ) (a b : Object) (ha : objects[i]? = some a) (hb : objects[j]? = some b)
    (hab : a.identity = b.identity) : i = j := by
  have hi : (objects.map Object.identity)[i]? = some a.identity := by
    rw [List.getElem?_map, ha]
    rfl
  have hj : (objects.map Object.identity)[j]? = some b.identity := by
    rw [List.getElem?_map, hb]
    rfl
  have hlt : i < (objects.map Object.identity).length := (List.getElem?_eq_some_iff.mp hi).1
  exact (List.getElem?_inj hlt h).mp (hi.trans (hab ▸ hj.symm))

/-- The letter `a` is a proper file name, so it can be the name of an entry. -/
theorem normal_a : AbsolutePath.Normal [97] :=
  ⟨by decide, by decide, by decide⟩

/-- The name `a`, of the entries of the sample. -/
def nameA : FileName := ⟨[97], normal_a⟩

/-- The first object of a list is there, and it is the one that is held. -/
theorem present_first {objects : List Object} (h : objects ≠ []) (fd : Fd) (place : Place)
    (hplace : (if fd = 3 then some ⟨7, 0⟩ else none) = some place) :
    (objects[place.object]?).isSome := by
  split at hplace
  · cases hplace
    obtain ⟨first, rest, rfl⟩ := List.exists_cons_of_ne_nil h
    rfl
  · cases hplace

/-- The world of some objects, the first of which is held. -/
def worldOf (objects : List Object) (hnodup : (objects.map Object.identity).Nodup)
    (hne : objects ≠ []) : World where
  objects := fun i => objects[i]?
  mounted := fun _ => none
  handles := fun fd => if fd = 3 then some ⟨7, 0⟩ else none
  identified := identified_of_nodup hnodup
  present := present_first hne

/-- An empty root, a directory elsewhere with a file `a`, and the file. -/
def sampleObjects : List Object :=
  [⟨1, 256, .directory, [], List.nodup_nil⟩,
    ⟨1, 257, .directory, [(nameA, 2)], List.nodup_singleton nameA⟩,
    ⟨1, 258, .regularFile, [], List.nodup_nil⟩]

/-- The identities of the sample objects differ, as a world demands. -/
theorem nodup_sampleObjects : (sampleObjects.map Object.identity).Nodup := by decide

/-- The world of these objects, of which the empty root is held. -/
def sampleWorld : World := worldOf sampleObjects nodup_sampleObjects (List.cons_ne_nil _ _)

/-- The directory with one more entry, unless it has one of that name. -/
def Object.given (object : Object) (name : FileName) (child : ℕ) : Object :=
  if h : name ∉ object.entries.map Prod.fst then object.add name child h else object

/-- An entry more does not change the identity of a directory. -/
theorem Object.identity_given (object : Object) (name : FileName) (child : ℕ) :
    (object.given name child).identity = object.identity := by
  unfold Object.given
  split
  · rfl
  · rfl

/-- Another process moves the file into the root. -/
def moved (w : World) : World :=
  (w.change 1 (·.without nameA) fun object => object.identity_without nameA).change 0
    (·.given nameA 2) fun object => object.identity_given nameA 2

/-- It does so behind the second listing of the root. -/
def mover (c : DestroyCall) (s : Scene) : Option World :=
  if c = .readDirectory 3 ∧ s.history.length = 1 then some (moved s.world) else none

/-- What the other process does is something that others may do. -/
theorem alters_mover (s : Scene) (c : DestroyCall) (w : World) (h : mover c s = some w) :
    (answer (E := PortError) OnLinux.nodeOf s.world c).2.Alters w := by
  unfold mover at h
  split at h
  · rename_i hc
    obtain ⟨rfl, -⟩ := hc
    cases h
    exact ⟨rfl, World.keeps_change.trans World.keeps_change⟩
  · cases h

/-- A result that has a value succeeded with it. -/
theorem ok_of_toOption {ε α : Type} {r : Except ε α} {a : α} (h : r.toOption = some a) :
    r = .ok a := by
  cases r with
  | ok b => exact congrArg Except.ok (Option.some.inj h)
  | error e => cases h

/-- A removal in this world, in which others do what `others` says. -/
def runWith {N E : Type} (nodeOf : Object → N) (others : DestroyCall → Scene → Option World)
    (x : Removing N E E ℕ) (w : World) : Except E ℕ × Scene :=
  Program.execute (respond nodeOf others) x (.start w)

/-- The call on Linux, in the world whose empty root is filled again. -/
def runRefilled : Except PortError ℕ × Scene :=
  runWith OnLinux.nodeOf mover (OnLinux.removeRootContents 3 ⟨1, 256⟩ 7) sampleWorld

/-- **The root may not be empty when the call returns.**  Here nothing is removed at all,
and the file comes between the last listing and the `fsync` behind it. -/
theorem returns_with_entry :
    ∃ s seen, Returns (disturbed OnLinux.Shows) (OnLinux.removeRootContents 3 ⟨1, 256⟩ 7)
        (.start sampleWorld) (.ok 0) s ∧
      s.history.countP Moment.isRemoval = 0 ∧
      s.world.held 3 = some seen ∧ seen.object.entries ≠ [] := by
  have hrun : Returns (disturbed OnLinux.Shows) (OnLinux.removeRootContents 3 ⟨1, 256⟩ 7)
      (.start sampleWorld) runRefilled.1 runRefilled.2 :=
    returns_execute (steps_respond OnLinux.shows_nodeOf alters_mover) _ _
  have hreturned : runRefilled.1.toOption = some 0 := by decide +kernel
  have hnone : runRefilled.2.history.countP Moment.isRemoval = 0 := by decide +kernel
  have hentries : (runRefilled.2.world.held 3).map (·.object.entries) = some [(nameA, 2)] := by
    decide +kernel
  obtain ⟨seen, hheld, hseen⟩ := Option.map_eq_some_iff.mp hentries
  rw [ok_of_toOption hreturned] at hrun
  exact ⟨_, seen, hrun, hnone, hheld, hseen ▸ List.cons_ne_nil _ _⟩

end Refilled

/-! ### A root with a directory in it

Two levels below a root, removed in order and left alone.  And a removal without checks,
which does not satisfy `Destroys`: the statement is not one about every program. -/

section Nested

/-- A root with a directory `a` that holds a file `a`. -/
def nestedObjects : List Object :=
  [⟨1, 256, .directory, [(nameA, 1)], List.nodup_singleton nameA⟩,
    ⟨1, 257, .directory, [(nameA, 2)], List.nodup_singleton nameA⟩,
    ⟨1, 258, .regularFile, [], List.nodup_nil⟩]

/-- The identities of the nested objects differ, as a world demands. -/
theorem nodup_nestedObjects : (nestedObjects.map Object.identity).Nodup := by decide

/-- The world of these objects, of which the root is held. -/
def nestedWorld : World := worldOf nestedObjects nodup_nestedObjects (List.cons_ne_nil _ _)

/-- Nobody else does anything: the world changes by the removal alone. -/
def nobody (_ : DestroyCall) (_ : Scene) : Option World := none

/-- Who does nothing alters nothing, so such a world is one in which nobody interferes. -/
theorem alters_nobody {N E : Type} (nodeOf : Object → N) (s : Scene) (c : DestroyCall) (w : World)
    (h : nobody c s = some w) : (answer (E := E) nodeOf s.world c).2.Alters w := by
  cases h

/-- Is it a removal that others left alone since the checks before it? -/
def Moment.isSteady : Moment → Bool
  | .emptied _ _ => false
  | .removed _ _ _ steady _ => steady

/-- The removal on Linux below this root, with its last scene. -/
def runLinux : Except PortError ℕ × Scene :=
  runWith OnLinux.nodeOf nobody (OnLinux.removeRootContents 3 ⟨1, 256⟩ 7) nestedWorld

/-- The removal on macOS below this root, with its last scene. -/
def runMacOs : Except OnMacOs.IoError ℕ × Scene :=
  runWith OnMacOs.nodeOf nobody (OnMacOs.removeRootContents 3 ⟨1, 256⟩) nestedWorld

/-- Below this root both calls remove the file and then the directory, in scope, with nobody acting
since the checks before each.  The runs are evaluated with the world's own answers, and the theorem
is applied to each. -/
theorem destroy_scope_and_count_nested :
    (∃ s, Returns (disturbed OnLinux.Shows) (OnLinux.removeRootContents 3 ⟨1, 256⟩ 7)
        (.start nestedWorld) (.ok 2) s ∧
      Scoped 3 True s.history ∧ s.history.countP Moment.isRemoval = 2 ∧
      s.history.countP Moment.isSteady = 2) ∧
    ∃ s, Returns (disturbed OnMacOs.Shows) (OnMacOs.removeRootContents 3 ⟨1, 256⟩)
        (.start nestedWorld) (.ok 2) s ∧
      Scoped 3 False s.history ∧ s.history.countP Moment.isRemoval = 2 ∧
      s.history.countP Moment.isSteady = 2 := by
  have hlinux : Returns (disturbed OnLinux.Shows) (OnLinux.removeRootContents 3 ⟨1, 256⟩ 7)
      (.start nestedWorld) runLinux.1 runLinux.2 :=
    returns_execute (steps_respond OnLinux.shows_nodeOf (alters_nobody _)) _ _
  have hmacos : Returns (disturbed OnMacOs.Shows) (OnMacOs.removeRootContents 3 ⟨1, 256⟩)
      (.start nestedWorld) runMacOs.1 runMacOs.2 :=
    returns_execute (steps_respond OnMacOs.shows_nodeOf (alters_nobody _)) _ _
  have hok : runLinux.1.toOption = some 2 ∧ runMacOs.1.toOption = some 2 := by decide +kernel
  have hsteady : runLinux.2.history.countP Moment.isSteady = 2 ∧
      runMacOs.2.history.countP Moment.isSteady = 2 := by
    decide +kernel
  rw [ok_of_toOption hok.1] at hlinux
  rw [ok_of_toOption hok.2] at hmacos
  have hdestroys := destroy_scope_and_count.1 nestedWorld 3 ⟨1, 256⟩ 7
  have hdestroys' := destroy_scope_and_count.2 nestedWorld 3 ⟨1, 256⟩
  exact ⟨⟨_, hlinux, hdestroys.scope _ hlinux.visits, hdestroys.count _ _ hlinux, hsteady.1⟩,
    _, hmacos, hdestroys'.scope _ hmacos.visits, hdestroys'.count _ _ hmacos, hsteady.2⟩

/-- A root whose entry `a` is a file on another device. -/
def foreignObjects : List Object :=
  [⟨1, 256, .directory, [(nameA, 1)], List.nodup_singleton nameA⟩,
    ⟨2, 258, .regularFile, [], List.nodup_nil⟩]

/-- The identities of the foreign objects differ, as a world demands. -/
theorem nodup_foreignObjects : (foreignObjects.map Object.identity).Nodup := by decide

/-- The world of these objects, of which the root is held. -/
def foreignWorld : World := worldOf foreignObjects nodup_foreignObjects (List.cons_ne_nil _ _)

/-- A removal that checks nothing before it unlinks. -/
def uncheckedRemoval : OnLinux.Removal ℕ := do
  Program.orFail (fun _ => OnLinux.staleScope) (call (.unlink 3 nameA false))
  pure 1

/-- **Checks are needed.**  A removal that makes none before it unlinks an entry does not
satisfy `Destroys`: where the entry lies on another device it is removed out of scope, and as
others have not acted since the checks began (there are none), `Scoped` forbids it. -/
theorem not_destroys_unchecked :
    ¬Destroys OnLinux.Shows 3 True uncheckedRemoval foreignWorld := by
  intro hdestroys
  have hrun : Returns (disturbed OnLinux.Shows) uncheckedRemoval (.start foreignWorld)
      (runWith OnLinux.nodeOf nobody uncheckedRemoval foreignWorld).1
      (runWith OnLinux.nodeOf nobody uncheckedRemoval foreignWorld).2 :=
    returns_execute (steps_respond OnLinux.shows_nodeOf (alters_nobody _)) _ _
  have hscoped := hdestroys.scope _ hrun.visits
  have hhistory : (runWith OnLinux.nodeOf nobody uncheckedRemoval foreignWorld).2.history =
      [.removed 3 nameA false true foreignWorld] := rfl
  obtain ⟨seen, hscope, -⟩ := hscoped 3 nameA false foreignWorld []
    (hhistory ▸ List.suffix_refl _)
  obtain ⟨top, hheld, hdevice, -⟩ := hscope.device
  have hroot : (foreignWorld.held 3).map (·.object.device) = some 1 := by decide
  have hentry : (foreignWorld.named 3 nameA).map (·.object.device) = some 2 := by decide
  rw [hheld, Option.map_some, Option.some.injEq] at hroot
  rw [hscope.named, Option.map_some, Option.some.injEq, hdevice, hroot] at hentry
  exact absurd hentry (by decide)

end Nested

end Destroy
end ThinWorkspace
