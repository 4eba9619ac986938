/-
# What a check tells

Other processes may act after every call, so what a call has seen may be over when the
next one is made.  Two things last: a handle stays the handle of its object
(`World.Keeps`), and where others have left the world alone since a row of checks began,
every check of the row has seen the same world (`Looks.steady`).

`Verifies` says what a scope check tells of the names above a held directory, and
`Verifies.child` adds the check of one more name.  `Confirms` is the check of an entry.
-/

import ThinWorkspace.Destroy.Remove

namespace ThinWorkspace
namespace Destroy

open ThinWorkspace.Core Lib Ports Program
open Linux (Errno)
open Btrfs (Fd DirEntry ReadDirFailure)

/-! ### Handles

A handle stays a handle of the same object as long as it is held, whatever others do to
names.  This is one of the two facts that outlast a call. -/

namespace World

variable {w w' w'' : World} {fd : Fd} {place : Place} {identity : FileIdentity} {seen : Sight}

/-- What is seen at a place is the object that the world has there. -/
theorem sight_eq_some :
    w.sight place = some seen ↔ w.objects place.object = some seen.object ∧ seen.place = place := by
  rw [sight, Option.map_eq_some_iff]
  constructor
  · rintro ⟨object, hobject, rfl⟩
    exact ⟨hobject, rfl⟩
  · rintro ⟨hobject, rfl⟩
    exact ⟨seen.object, hobject, rfl⟩

/-- What is seen through a handle is the object at the handle's place. -/
theorem held_eq_some :
    w.held fd = some seen ↔
      w.handles fd = some seen.place ∧ w.objects seen.place.object = some seen.object := by
  rw [held, Option.bind_eq_some_iff]
  constructor
  · rintro ⟨place, hplace, hsight⟩
    obtain ⟨hobject, rfl⟩ := sight_eq_some.mp hsight
    exact ⟨hplace, hobject⟩
  · rintro ⟨hplace, hobject⟩
    exact ⟨seen.place, hplace, sight_eq_some.mpr ⟨hobject, rfl⟩⟩

/-- What a name designates is an object of the world. -/
theorem objects_of_named {name : FileName} (h : w.named fd name = some seen) :
    w.objects seen.place.object = some seen.object := by
  obtain ⟨place, -, hsight⟩ := Option.bind_eq_some_iff.mp h
  obtain ⟨hobject, hplace⟩ := sight_eq_some.mp hsight
  rwa [hplace]

/-- Two sights of one identity are sights of one object. -/
theorem object_inj {a b : Sight} (ha : w.objects a.place.object = some a.object)
    (hb : w.objects b.place.object = some b.object)
    (h : a.object.identity = b.object.identity) : a.place.object = b.place.object :=
  w.identified _ _ _ _ ha hb h

/-- A handle through which an object is seen holds that object's identity. -/
theorem Holds.of_held (h : w.held fd = some seen) :
    w.Holds fd seen.place seen.object.identity := ⟨seen.object, h, rfl⟩

/-- What is seen through a handle is at its place and has the identity it holds. -/
theorem Holds.eq (h : w.Holds fd place identity) (hseen : w.held fd = some seen) :
    seen.place = place ∧ seen.object.identity = identity := by
  obtain ⟨object, hheld, rfl⟩ := h
  obtain rfl : seen = ⟨place, object⟩ := Option.some.inj (hseen.symm.trans hheld)
  exact ⟨rfl, rfl⟩

/-- A handle holds an identity at a place exactly if it is a handle of that place and the object
there has the identity. -/
theorem holds_iff :
    w.Holds fd place identity ↔
      w.handles fd = some place ∧
        ∃ object, w.objects place.object = some object ∧ object.identity = identity := by
  constructor
  · rintro ⟨object, hheld, rfl⟩
    obtain ⟨hhandle, hobject⟩ := held_eq_some.mp hheld
    exact ⟨hhandle, object, hobject, rfl⟩
  · rintro ⟨hhandle, object, hobject, rfl⟩
    exact ⟨object, held_eq_some.mpr ⟨hhandle, hobject⟩, rfl⟩

/-- A world keeps its own handles, each with the place that it is held at. -/
theorem Keeps.refl (w : World) : w.Keeps w := fun _ _ _ h => h

/-- Handles that are kept twice are kept, so stretches can be put together. -/
theorem Keeps.trans (h : w.Keeps w') (h' : w'.Keeps w'') : w.Keeps w'' :=
  fun fd place identity hholds => h' fd place identity (h fd place identity hholds)

/-- Changing an object's entries, but not its identity, keeps every handle. -/
theorem keeps_change {i : ℕ} {f : Object → Object} {hf : ∀ a, (f a).identity = a.identity} :
    w.Keeps (w.change i f hf) := by
  intro fd place identity h
  obtain ⟨hhandle, object, hobject, rfl⟩ := holds_iff.mp h
  refine holds_iff.mpr ⟨hhandle, ?_⟩
  change ∃ object', changed w.objects i f place.object = some object' ∧ _
  by_cases hi : place.object = i
  · refine ⟨f object, ?_, hf object⟩
    rw [changed, hi, Function.update_self, ← hi, hobject]
    rfl
  · refine ⟨object, ?_, rfl⟩
    rw [changed, Function.update_of_ne hi, hobject]

/-- Removing a name keeps every handle, also those of the object it named. -/
theorem keeps_unlinked {directory : Fd} {name : FileName} :
    w.Keeps (w.unlinked directory name) := by
  unfold unlinked
  split
  · exact Keeps.refl w
  · exact keeps_change

/-- A new handle is another one, so it takes nothing from the others. -/
theorem keeps_hold {other : Fd} {p : Place} (h : w.handles other = none) :
    w.Keeps (w.hold other p) := by
  intro fd place identity hholds
  unfold hold
  split
  · obtain ⟨hhandle, hobject⟩ := holds_iff.mp hholds
    have hne : fd ≠ other := by
      rintro rfl
      rw [h] at hhandle
      cases hhandle
    refine holds_iff.mpr ⟨?_, hobject⟩
    change Function.update w.handles other (some p) fd = some place
    rw [Function.update_of_ne hne, hhandle]
  · exact hholds

/-- Closing one handle leaves what another one holds. -/
theorem Holds.release {other : Fd} (h : w.Holds fd place identity) (hne : fd ≠ other) :
    (w.release other).Holds fd place identity := by
  obtain ⟨hhandle, hobject⟩ := holds_iff.mp h
  refine holds_iff.mpr ⟨?_, hobject⟩
  change Function.update w.handles other none fd = some place
  rw [Function.update_of_ne hne, hhandle]

end World

/-! ### Steps

What a stretch of calls may have done, in three grades: nothing but looking, nothing that is
recorded, and `n` removals.  The grades compose, and the counts add. -/

variable {N E ε : Type} {shows : N → Object → Prop} {s s' s'' : Scene}

/-- What a call did, and what others left of it. -/
theorem Steps.cases {c : DestroyCall} {r : c.Result N E} (h : Steps shows s c r s') :
    ∃ w, Performs shows s.world c r w ∧ w.Keeps s'.world ∧
      (c.checks = true → s'.steady = true →
        s'.world = w ∧ (s.steady = true ∨ c = .verifyScope)) := by
  obtain ⟨w, hperforms, ⟨hworld, hsteady⟩ | ⟨halters, hsteady⟩⟩ := h.world
  · refine ⟨w, hperforms, hworld ▸ World.Keeps.refl w, fun hchecks hs => ⟨hworld, ?_⟩⟩
    rw [hsteady] at hs
    simpa [DestroyCall.begins, hchecks] using hs
  · refine ⟨w, hperforms, halters.keeps, fun hchecks hs => ?_⟩
    rw [hsteady, hchecks] at hs
    cases hs

/-- Between the scenes nothing was found empty, nothing was removed, and no handle was lost. -/
structure Stays (s s' : Scene) : Prop where
  history : s'.history = s.history
  keeps : s.world.Keeps s'.world

/-- Between the scenes there were only checks, and none of them `verify_scope`: where others
have left the world alone at the end of them, it is the world from before. -/
structure Looks (s s' : Scene) : Prop extends Stays s s' where
  steady : s'.steady = true → s.steady = true ∧ s'.world = s.world

/-- Doing nothing looks: neither the world nor the history changes. -/
theorem Looks.refl (s : Scene) : Looks s s := ⟨⟨rfl, World.Keeps.refl _⟩, fun h => ⟨h, rfl⟩⟩

/-- Two looks, one after the other, are one: where nobody changed the world since the first began,
both have seen the same world. -/
theorem Looks.trans (h : Looks s s') (h' : Looks s' s'') : Looks s s'' where
  history := h'.history.trans h.history
  keeps := h.keeps.trans h'.keeps
  steady := by
    intro hs
    obtain ⟨hs', hw'⟩ := h'.steady hs
    obtain ⟨hs, hw⟩ := h.steady hs'
    exact ⟨hs, hw'.trans hw⟩

/-- A call that adds nothing to the history and changes nothing stays. -/
theorem Steps.stays {c : DestroyCall} {r : c.Result N E} (h : Steps shows s c r s')
    (hmoments : moments s c r = []) (hsame : ∀ w, Performs shows s.world c r w → w = s.world) :
    Stays s s' := by
  obtain ⟨w, hperforms, hkeeps, -⟩ := h.cases
  obtain rfl := hsame w hperforms
  refine ⟨?_, hkeeps⟩
  rw [h.history, hmoments]
  rfl

/-- A check other than `verify_scope` looks: it removes nothing, and others may act after it. -/
theorem Steps.looks {c : DestroyCall} {r : c.Result N E} (h : Steps shows s c r s')
    (hmoments : moments s c r = []) (hsame : ∀ w, Performs shows s.world c r w → w = s.world)
    (hchecks : c.checks = true) (hc : c ≠ .verifyScope) : Looks s s' := by
  refine ⟨h.stays hmoments hsame, fun hs => ?_⟩
  obtain ⟨w, hperforms, -, hsteady⟩ := h.cases
  obtain rfl := hsame w hperforms
  obtain ⟨hworld, hs | hs⟩ := hsteady hchecks hs
  · exact ⟨hs, hworld⟩
  · exact absurd hs hc

/-- Between the scenes `n` entries were removed, and no handle was lost. -/
structure Advances (n : ℕ) (s s' : Scene) : Prop where
  keeps : s.world.Keeps s'.world
  history : ∃ new, s'.history = new ++ s.history ∧ new.countP Moment.isRemoval = n

/-- A step that records nothing is an advance without a removal. -/
theorem Stays.advances (h : Stays s s') : Advances 0 s s' := ⟨h.keeps, [], h.history, rfl⟩

/-- The removals of two advances add up, as the counts of the code do. -/
theorem Advances.trans {m n : ℕ} (h : Advances m s s') (h' : Advances n s' s'') :
    Advances (m + n) s s'' := by
  obtain ⟨new, hnew, hm⟩ := h.history
  obtain ⟨new', hnew', hn⟩ := h'.history
  refine ⟨h.keeps.trans h'.keeps, new' ++ new, ?_, ?_⟩
  · rw [hnew', hnew, List.append_assoc]
  · rw [List.countP_append, hm, hn, Nat.add_comm]

/-- What removed nothing goes before without changing the count. -/
theorem Advances.after {n : ℕ} (h' : Advances n s' s'') (h : Advances 0 s s') :
    Advances n s s'' := by
  have hboth : Advances (0 + n) s s'' := h.trans h'
  rwa [Nat.zero_add] at hboth

/-- The last thing that happened is that the held directory was found empty. -/
def Emptied (directory : Fd) (place : Place) (identity : FileIdentity) (s : Scene) : Prop :=
  ∃ w earlier, s.history = .emptied directory w :: earlier ∧ w.Holds directory place identity ∧
    ∀ seen, w.held directory = some seen → seen.object.entries = []

/-- A directory that was found empty stays so remembered. -/
theorem Stays.emptied {directory : Fd} {place : Place} {identity : FileIdentity} (h : Stays s s')
    (he : Emptied directory place identity s) : Emptied directory place identity s' := by
  obtain ⟨w, earlier, hhistory, he⟩ := he
  exact ⟨w, earlier, h.history.trans hhistory, he⟩

/-- A directory that was found empty through its handle was found empty under its identity. -/
theorem Emptied.foundEmpty {directory : Fd} {place : Place} {identity : FileIdentity}
    (h : Emptied directory place identity s) : FoundEmpty s.history identity := by
  obtain ⟨w, earlier, hhistory, hholds, hentries⟩ := h
  exact ⟨directory, w, place, hhistory ▸ List.mem_cons_self, hholds, hentries⟩

/-- What was found empty before an advance was found empty after it: the history only grows. -/
theorem Advances.foundEmpty {n : ℕ} {identity : FileIdentity} (h : Advances n s s')
    (he : FoundEmpty s.history identity) : FoundEmpty s'.history identity := by
  obtain ⟨new, hnew, -⟩ := h.history
  obtain ⟨fd, w, place, hmem, he⟩ := he
  exact ⟨fd, w, place, hnew ▸ List.mem_append_right new hmem, he⟩

/-! ### The rule of a removal

`Ensures` is the specification of a part of a removal.  Every unlink in it must be careful:
in scope, and of a directory that was found empty, unless others have acted since the checks
before it. -/

/-- An entry is removed only in scope, and a directory only when it was found empty, unless
others have acted since the checks directly before began.  The handle of the root is not closed:
it is the caller's. -/
def careful (root : Fd) (compareMounts : Prop) : DestroyCall → Scene → Prop
  | .unlink directory name removeDirectory, s =>
    s.steady = true → ∃ seen, InScope s.world root compareMounts directory name seen ∧
      (removeDirectory = true → FoundEmpty s.history seen.object.identity)
  | .close fd, _ => fd ≠ root
  | _, _ => True

variable {root : Fd} {compareMounts : Prop} {α : Type}

/-- A part of a removal is careful, and leaves `P` where it returns. -/
abbrev Ensures (shows : N → Object → Prop) (root : Fd) (compareMounts : Prop)
    (P : α → Scene → Prop) (x : Removing N E ε α) (s : Scene) : Prop :=
  Delivers (disturbed shows) (careful root compareMounts) P x s

/-- A condition that is required holds where the part returns, and nothing has happened. -/
theorem ensures_require {p : Prop} [Decidable p] {error : ε} :
    Ensures shows root compareMounts (fun _ s' => p ∧ s' = s)
      (require p error : Removing N E ε Unit) s := by
  unfold require
  split
  · rename_i hp
    exact delivers_pure ⟨hp, rfl⟩
  · exact delivers_throw

/-- A sum that is returned is the sum: an overflow fails. -/
theorem ensures_checkedAdd {error : ε} {a b : ℕ} :
    Ensures shows root compareMounts (fun sum s' => sum = a + b ∧ s' = s)
      (checkedAdd error a b : Removing N E ε ℕ) s := by
  unfold checkedAdd
  split
  · exact delivers_pure ⟨rfl, rfl⟩
  · exact delivers_throw

/-! ### The calls

Each call with what its answer tells, of the moment when it was made. -/

section Calls

variable {f : Errno → ε} {fd : Fd} {name : FileName}

/-- A `stat` that returns shows the object the handle saw when it was made. -/
theorem ensures_stat :
    Ensures shows root compareMounts
      (fun node s' => Looks s s' ∧ ∃ seen, s.world.held fd = some seen ∧ shows node seen.object)
      (Program.orFail f (call (.stat fd)) : Removing N E ε N) s := by
  refine Delivers.orFail (delivers_perform trivial fun r s' step => ?_)
  rintro node rfl
  obtain ⟨_, hperforms, -⟩ := step.cases
  exact ⟨step.looks rfl (fun _ h => h.1) rfl DestroyCall.noConfusion, hperforms.2 node rfl⟩

/-- A `statat` that returns shows the object the name designated when it was made. -/
theorem ensures_statAt :
    Ensures shows root compareMounts
      (fun node s' => Looks s s' ∧
        ∃ seen, s.world.named fd name = some seen ∧ shows node seen.object)
      (Program.orFail f (call (.statAt fd name)) : Removing N E ε N) s := by
  refine Delivers.orFail (delivers_perform trivial fun r s' step => ?_)
  rintro node rfl
  obtain ⟨_, hperforms, -⟩ := step.cases
  exact ⟨step.looks rfl (fun _ h => h.1) rfl DestroyCall.noConfusion, hperforms.2 node rfl⟩

/-- A mount number that is returned is the one of the handle's place. -/
theorem ensures_mountId :
    Ensures shows root compareMounts
      (fun observed s' => Looks s s' ∧ ∀ mount, observed = some mount →
        ∃ seen, s.world.held fd = some seen ∧ seen.place.mount = mount)
      (Program.orFail f (call (.mountId fd)) : Removing N E ε (Option UInt64)) s := by
  refine Delivers.orFail (delivers_perform trivial fun r s' step => ?_)
  rintro observed rfl
  obtain ⟨_, hperforms, -⟩ := step.cases
  refine ⟨step.looks rfl (fun _ h => h.1) rfl DestroyCall.noConfusion, ?_⟩
  rintro mount rfl
  exact hperforms.2 mount rfl

/-- A mount number that is returned for a name is the one of what the name designated. -/
theorem ensures_mountIdAt :
    Ensures shows root compareMounts
      (fun observed s' => Looks s s' ∧ ∀ mount, observed = some mount →
        ∃ seen, s.world.named fd name = some seen ∧ seen.place.mount = mount)
      (Program.orFail f (call (.mountIdAt fd name)) : Removing N E ε (Option UInt64)) s := by
  refine Delivers.orFail (delivers_perform trivial fun r s' step => ?_)
  rintro observed rfl
  obtain ⟨_, hperforms, -⟩ := step.cases
  refine ⟨step.looks rfl (fun _ h => h.1) rfl DestroyCall.noConfusion, ?_⟩
  rintro mount rfl
  exact hperforms.2 mount rfl

/-- Syncing a directory records nothing and removes nothing, whether it succeeds or fails. -/
theorem ensures_sync :
    Ensures shows root compareMounts (fun _ s' => Stays s s')
      (Program.orFail f (call (.sync fd)) : Removing N E ε Unit) s := by
  refine Delivers.orFail (delivers_perform trivial fun r s' step => ?_)
  rintro _ rfl
  exact step.stays rfl fun _ h => h

/-- A listing that comes back empty is remembered as a moment at which the directory was empty. -/
theorem ensures_readDirectory {f : ReadDirFailure → ε} {place : Place} {identity : FileIdentity}
    (h : s.world.Holds fd place identity) :
    Ensures shows root compareMounts
      (fun entries s' => Advances 0 s s' ∧
        (entries.filterMap DirEntry.name? = [] → Emptied fd place identity s'))
      (Program.orFail f (call (.readDirectory fd)) : Removing N E ε (List DirEntry)) s := by
  refine Delivers.orFail (delivers_perform trivial fun r s' step => ?_)
  rintro entries rfl
  obtain ⟨_, ⟨rfl, hempty⟩, hkeeps, -⟩ := step.cases
  have hhistory : s'.history =
      (if entries.filterMap DirEntry.name? = [] then [.emptied fd s.world] else []) ++ s.history :=
    step.history
  split at hhistory
  · rename_i hnames
    refine ⟨⟨hkeeps, [.emptied fd s.world], hhistory, rfl⟩, fun _ => ?_⟩
    refine ⟨s.world, _, hhistory, h, fun seen hseen => ?_⟩
    obtain ⟨seen', hseen', hentries⟩ := hempty entries rfl hnames
    obtain rfl : seen = seen' := Option.some.inj (hseen.symm.trans hseen')
    exact hentries
  · rename_i hnames
    exact ⟨⟨hkeeps, [], hhistory, rfl⟩, fun he => absurd he hnames⟩

/-- A new handle is a handle of what the name designates. -/
theorem ensures_openDirectory :
    Ensures shows root compareMounts
      (fun child s' => s.world.handles child = none ∧ Advances 0 s s')
      (Program.orFail f (call (.openDirectory fd name)) : Removing N E ε Fd) s := by
  refine Delivers.orFail (delivers_perform trivial fun r s' step => ?_)
  rintro child rfl
  obtain ⟨_, ⟨seen, -, -, hfree, rfl⟩, hkeeps, -⟩ := step.cases
  exact ⟨hfree, (World.keeps_hold hfree).trans hkeeps, [], step.history, rfl⟩

/-- Closing a handle that is not the root's keeps every other handle and records nothing. -/
theorem ensures_drop (h : fd ≠ root) :
    Ensures shows root compareMounts
      (fun _ s' => s'.history = s.history ∧ (s.world.release fd).Keeps s'.world)
      (drop fd : Removing N E ε Unit) s := by
  refine delivers_perform h fun _ s' step => ?_
  obtain ⟨_, rfl, hkeeps, -⟩ := step.cases
  exact ⟨step.history, hkeeps⟩

/-- The removal of an entry is one removal, and needs the care that the guard demands of it. -/
theorem ensures_unlink {removeDirectory : Bool}
    (h : careful root compareMounts (.unlink fd name removeDirectory) s) :
    Ensures shows root compareMounts (fun _ s' => Advances 1 s s')
      (Program.orFail f (call (.unlink fd name removeDirectory)) : Removing N E ε Unit) s := by
  refine Delivers.orFail (delivers_perform h fun r s' step => ?_)
  rintro _ rfl
  obtain ⟨_, ⟨-, rfl⟩, hkeeps, -⟩ := step.cases
  exact ⟨World.keeps_unlinked.trans hkeeps, _, step.history, rfl⟩

end Calls

/-! ### Checks

A row of checks speaks of one moment only if nobody acted between its first and its last.
`Verifies` and `Confirms` carry this proviso; `Verifies.child` extends the check of a scope
by one name. -/

/-- A scope check: it holds wherever the handles of `w` are still there, adds nothing to
the history, and tells that the names of the directories above `directory` lead to it. -/
def Verifies (shows : N → Object → Prop) (root : Fd) (compareMounts : Prop) (w : World)
    (directory : Fd) (verifyScope : Removing N E ε Unit) : Prop :=
  ∀ s, w.Keeps s.world →
    Ensures shows root compareMounts
      (fun _ s' => Advances 0 s s' ∧ (s'.steady = true → Leads s'.world root directory))
      verifyScope s

/-- A check of an entry: it only looks, and what the name designates is as expected. -/
def Confirms (shows : N → Object → Prop) (root : Fd) (compareMounts : Prop) (w : World)
    (directory : Fd) (name : FileName) (expected : Sight → Prop) (check : Removing N E ε Unit) :
    Prop :=
  ∀ s, w.Keeps s.world →
    Ensures shows root compareMounts
      (fun _ s' => Looks s s' ∧ (s'.steady = true →
        ∃ seen, s'.world.named directory name = some seen ∧ expected seen)) check s

/-- A scope check verifies what it did after the world went on, since handles are kept. -/
theorem Verifies.mono {w w' : World} {directory : Fd} {verifyScope : Removing N E ε Unit}
    (h : Verifies shows root compareMounts w directory verifyScope) (hw : w.Keeps w') :
    Verifies shows root compareMounts w' directory verifyScope :=
  fun s hs => h s (hw.trans hs)

/-- The caller's check has nothing above it: the root is held, and its name is the caller's. -/
theorem verifies_callerScope (w : World) :
    Verifies shows root compareMounts w root (callerScope : Removing N E E Unit) := by
  intro s _
  refine Delivers.orFail (delivers_perform trivial fun r s' step => ?_)
  rintro _ rfl
  obtain ⟨_, rfl, hkeeps, -⟩ := step.cases
  exact ⟨⟨hkeeps, [], step.history, rfl⟩, fun _ => .root⟩

/-- A scope check and the check of an entry, where nothing has changed since. -/
theorem Verifies.confirm {w : World} {directory : Fd} {name : FileName} {expected : Sight → Prop}
    {verifyScope check : Removing N E ε Unit}
    (hverify : Verifies shows root compareMounts w directory verifyScope)
    (hcheck : Confirms shows root compareMounts w directory name expected check)
    (hs : w.Keeps s.world) :
    Ensures shows root compareMounts
      (fun _ s' => Advances 0 s s' ∧ (s'.steady = true → Leads s'.world root directory ∧
        ∃ seen, s'.world.named directory name = some seen ∧ expected seen))
      (do verifyScope; check) s := by
  refine (hverify s hs).bind fun _ s₁ ⟨hfirst, hleads⟩ => ?_
  refine (hcheck s₁ (hs.trans hfirst.keeps)).mono fun _ s₂ ⟨hlooks, hnamed⟩ => ?_
  refine ⟨hfirst.trans hlooks.advances, fun hsteady => ⟨?_, hnamed hsteady⟩⟩
  obtain ⟨hsteady₁, hworld⟩ := hlooks.steady hsteady
  rw [hworld]
  exact hleads hsteady₁

/-- **One more name.**  A scope check for a directory becomes one for a directory held
below it by the check that its name still designates it. -/
theorem Verifies.child {w : World} {directory child : Fd} {name : FileName} {place : Place}
    {identity : FileIdentity} {expected : Sight → Prop} {verifyScope check : Removing N E ε Unit}
    (hverify : Verifies shows root compareMounts w directory verifyScope)
    (hcheck : Confirms shows root compareMounts w directory name expected check)
    (hexpected : ∀ seen, expected seen → seen.object.identity = identity)
    (hholds : w.Holds child place identity) :
    Verifies shows root compareMounts w child (do verifyScope; check) := by
  intro s hs
  refine (hverify.confirm hcheck hs).mono fun _ s' ⟨hadvances, h⟩ => ⟨hadvances, fun hsteady => ?_⟩
  obtain ⟨hleads, seen, hnamed, hseen⟩ := h hsteady
  obtain ⟨object, hheld, hidentity⟩ := hadvances.keeps _ _ _ (hs _ _ _ hholds)
  refine .child hleads hheld hnamed ?_
  exact World.object_inj (World.objects_of_named hnamed) (World.held_eq_some.mp hheld).2
    ((hexpected seen hseen).trans hidentity.symm)

/-- A check that follows a look confirms what the check confirms. -/
theorem Confirms.after {w : World} {directory : Fd} {name : FileName} {expected : Sight → Prop}
    {x check : Removing N E ε Unit}
    (hx : ∀ s, Ensures shows root compareMounts (fun _ s' => Looks s s') x s)
    (hcheck : Confirms shows root compareMounts w directory name expected check) :
    Confirms shows root compareMounts w directory name expected (do x; check) := by
  intro s hs
  refine (hx s).bind fun _ s₁ hfirst => ?_
  refine (hcheck s₁ (hs.trans hfirst.keeps)).mono fun _ s₂ ⟨hlooks, hnamed⟩ => ?_
  exact ⟨hfirst.trans hlooks, hnamed⟩

/-! ### Removals below a root

The recursion is specified by `Clears`, and the lemmas are the steps that it makes on either
platform: a directory below, the removal of an entry, and the loop over the names. -/

section Removals

/-- An entry as it must still be when it is removed: the object that was seen, on the
device of the root and, where mounts are compared, on its mount. -/
def AsSeen (compareMounts : Prop) (top : Place) (identity : FileIdentity) (seen : Sight) : Prop :=
  seen.object.identity = identity ∧ (compareMounts → seen.place.mount = top.mount)

/-- The recursion: where the root and a directory on its device are held, what it returns
is the number of entries it removed, and the directory was found empty last. -/
def Clears (shows : N → Object → Prop) (root : Fd) (compareMounts : Prop) (top : Place)
    (rootIdentity : FileIdentity)
    (removeContents : Fd → FileIdentity → Removing N E ε Unit → Removing N E ε ℕ) : Prop :=
  ∀ s directory place identity verifyScope, s.world.Holds root top rootIdentity →
    s.world.Holds directory place identity → identity.device = rootIdentity.device →
    Verifies shows root compareMounts s.world directory verifyScope →
    Ensures shows root compareMounts
      (fun n s' => Advances n s s' ∧ Emptied directory place identity s')
      (removeContents directory identity verifyScope) s

variable {top : Place} {rootIdentity identity : FileIdentity} {directory : Fd} {name : FileName}
variable {verifyScope check : Removing N E ε Unit} {removed : ℕ} {error : ε}

/-- What lies in a directory below is removed through its handle, which is then closed. -/
theorem ensures_below
    {removeContents : Fd → FileIdentity → Removing N E ε Unit → Removing N E ε ℕ}
    {requireChild : Fd → Removing N E ε Unit} {f : Errno → ε}
    (hclears : Clears shows root compareMounts top rootIdentity removeContents)
    (hrequire : ∀ child s, Ensures shows root compareMounts
      (fun _ s' => Looks s s' ∧ ∃ place, s'.world.Holds child place identity)
      (requireChild child) s)
    (hroot : s.world.Holds root top rootIdentity) (hdevice : identity.device = rootIdentity.device)
    (hverify : Verifies shows root compareMounts s.world directory verifyScope)
    (hcheck : Confirms shows root compareMounts s.world directory name
      (AsSeen compareMounts top identity) check) :
    Ensures shows root compareMounts
      (fun total s' => ∃ n, total = removed + n ∧ Advances n s s' ∧
        FoundEmpty s'.history identity)
      (do
        let child ← Program.orFail f (call (.openDirectory directory name))
        requireChild child
        let below ← removeContents child identity (do verifyScope; check)
        let total ← checkedAdd error removed below
        requireChild child
        drop child
        pure total) s := by
  refine ensures_openDirectory.bind fun child s₁ ⟨hfree, hopen⟩ => ?_
  refine (hrequire child s₁).bind fun _ s₂ ⟨hlooks, place, hholds⟩ => ?_
  have hbefore : Advances 0 s s₂ := hopen.trans hlooks.advances
  have hchild : Verifies shows root compareMounts s₂.world child (do verifyScope; check) :=
    (hverify.mono hbefore.keeps).child (fun s hs => hcheck s (hbefore.keeps.trans hs))
      (fun _ h => h.1) hholds
  refine (hclears s₂ child place identity _ (hbefore.keeps _ _ _ hroot) hholds hdevice
    hchild).bind fun n s₃ ⟨hbelow, hempty⟩ => ?_
  refine ensures_checkedAdd.bind fun total s₄ ⟨htotal, hs₄⟩ => ?_
  subst hs₄
  refine (hrequire child s₄).bind fun _ s₅ ⟨hafter, _⟩ => ?_
  have hnone : ∀ fd place identity, s.world.Holds fd place identity → fd ≠ child := by
    rintro fd p i hfd rfl
    rw [(World.holds_iff.mp hfd).1] at hfree
    cases hfree
  refine (ensures_drop (hnone _ _ _ hroot).symm).bind fun _ s₆ ⟨hhistory, hkeeps⟩ =>
    delivers_pure ?_
  obtain ⟨hheld, new, hnew, hcount⟩ := (hbelow.after hbefore).trans hafter.advances
  refine ⟨n, htotal, ⟨fun fd p i hfd => ?_, new, hhistory.trans hnew, hcount⟩, ?_⟩
  · exact hkeeps _ _ _ ((hheld _ _ _ hfd).release (hnone _ _ _ hfd))
  · rw [hhistory]
    exact (hafter.emptied hempty).foundEmpty

/-- Where the checks directly before it have passed and nothing has changed since, the
removal of an entry is in scope. -/
theorem careful_unlink {removeDirectory : Bool}
    (h : s.steady = true → Leads s.world root directory ∧
      ∃ seen, s.world.named directory name = some seen ∧ AsSeen compareMounts top identity seen)
    (hroot : s.world.Holds root top rootIdentity) (hdevice : identity.device = rootIdentity.device)
    (hfound : removeDirectory = true → FoundEmpty s.history identity) :
    careful root compareMounts (.unlink directory name removeDirectory) s := by
  intro hsteady
  obtain ⟨hleads, seen, hnamed, rfl, hmount⟩ := h hsteady
  obtain ⟨object, hheld, rfl⟩ := hroot
  exact ⟨seen, ⟨hleads, hnamed, ⟨top, object⟩, hheld, hdevice, hmount⟩, hfound⟩

/-- The end of a turn: the checks, the removal and the count. -/
theorem ensures_removal {removeDirectory : Bool} {f : Errno → ε}
    (hroot : s.world.Holds root top rootIdentity) (hdevice : identity.device = rootIdentity.device)
    (hverify : Verifies shows root compareMounts s.world directory verifyScope)
    (hcheck : Confirms shows root compareMounts s.world directory name
      (AsSeen compareMounts top identity) check)
    (hfound : removeDirectory = true → FoundEmpty s.history identity) :
    Ensures shows root compareMounts (fun total s' => total = removed + 1 ∧ Advances 1 s s')
      (do
        verifyScope
        check
        Program.orFail f (call (.unlink directory name removeDirectory))
        checkedAdd error removed 1) s := by
  rw [← Program.bind_assoc]
  refine (hverify.confirm hcheck (World.Keeps.refl _)).bind fun _ s₁ ⟨hchecked, hscope⟩ => ?_
  have hcareful : careful root compareMounts (.unlink directory name removeDirectory) s₁ :=
    careful_unlink hscope (hchecked.keeps _ _ _ hroot) hdevice fun h =>
      hchecked.foundEmpty (hfound h)
  refine (ensures_unlink hcareful).bind fun _ s₂ hremoved => ?_
  refine ensures_checkedAdd.mono fun total s₃ ⟨htotal, hs₃⟩ => ?_
  subst hs₃
  exact ⟨htotal, hremoved.after hchecked⟩

/-- The loop over the names counts what its turns remove, in whatever order the names come. -/
theorem ensures_names {turn : ℕ → FileName → Removing N E ε ℕ}
    (hturn : ∀ removed name s', s.world.Keeps s'.world →
      Ensures shows root compareMounts
        (fun total s'' => ∃ n, total = removed + n ∧ Advances n s' s'') (turn removed name) s')
    (names : List FileName) :
    Ensures shows root compareMounts (fun total s' => Advances total s s')
      (names.foldlM turn 0) s := by
  have hstart : Advances 0 s s := (Looks.refl s).advances
  refine delivers_foldlM (fun removed name s' h => ?_) names hstart
  refine (hturn removed name s' h.keeps).mono fun total s'' ⟨n, htotal, hn⟩ => ?_
  rw [htotal]
  exact h.trans hn

end Removals

end Destroy
end ThinWorkspace
