/-
# A removal that others leave alone

`Scope` says what a removal does in a world in which others may act behind every call.  Here
nobody does (`alone`), so what the world becomes is known as well: a directory that the root
reaches may lose entries, and nothing else changes (`Thins`).  `Undisturbed` is the invariant of
such a run, and `Undisturbed.step` its step lemma, over the same guard `careful` that `Scope`
proves of every call.

`removeRootContents_alone` is the result on both platforms.  A removal that returns has left the
root empty here: no other process can fill it again, as one does in `returns_with_entry`.
-/

import ThinWorkspace.Destroy.Scope

namespace ThinWorkspace
namespace Destroy

open ThinWorkspace.Core Lib Ports Program
open Btrfs (Fd)

/-! ### Calls behind which nobody acts

`alone` is the disturbed world with nobody disturbing it: a call, and then the next one.  So
everything that was shown of the disturbed world holds here. -/

section Calls

variable {N E : Type} {shows : N → Object → Prop} {s s' : Scene} {c : DestroyCall}
variable {r : c.Result N E}

/-- A call, and nothing that others do before the next one. -/
structure Acts (shows : N → Object → Prop) (s : Scene) (c : DestroyCall) (r : c.Result N E)
    (s' : Scene) : Prop where
  history : s'.history = moments s c r ++ s.history
  performs : Performs shows s.world c r s'.world
  steady : s'.steady = (s.steady || c.begins)

/-- The file system, with no other process in it. -/
def alone (shows : N → Object → Prop) : Environment DestroyCall (DestroyCall.Result N E) Scene where
  step := Acts shows

/-- It is one of the things that may happen where others act. -/
theorem Acts.steps (h : Acts shows s c r s') : Steps shows s c r s' :=
  ⟨h.history, s'.world, h.performs, .inl ⟨rfl, h.steady⟩⟩

/-- What a listing found empty was found in the world it was made in.  Only a listing records such
a moment, and it records the world before it. -/
theorem eq_of_emptied {fd : Fd} {w : World} (h : .emptied fd w ∈ moments s c r) : w = s.world := by
  cases c with
  | readDirectory directory =>
    cases r with
    | error e => cases h
    | ok entries =>
      rw [moments] at h
      split at h
      · exact (Moment.emptied.inj (List.mem_singleton.mp h)).2
      · cases h
  | unlink directory name removeDirectory =>
    cases r with
    | error e => cases h
    | ok u => exact Moment.noConfusion (List.mem_singleton.mp h)
  | verifyScope => cases h
  | openDirectory parent name => cases h
  | close fd => cases h
  | stat fd => cases h
  | statAt parent name => cases h
  | mountId fd => cases h
  | mountIdAt parent name => cases h
  | sync directory => cases h

end Calls

/-! ### What lies below a directory

Names lead from a directory to what lies below it, through whatever is mounted there.  What
a removal touches is reached from its root in this sense. -/

variable {w w' w'' : World} {i j : ℕ} {root directory : Fd} {name : FileName} {top place : Place}
variable {seen : Sight}

/-- Names lead from the object `i` to this one, from directory to directory and to what is mounted
over what they name. -/
inductive Reaches (w : World) (i : ℕ) : ℕ → Prop
  | here : Reaches w i i
  | entry {j k : ℕ} {object : Object} {name : FileName} (above : Reaches w i j)
      (hobject : w.objects j = some object) (hmem : (name, k) ∈ object.entries) : Reaches w i k
  | mounted {mount : UInt64} {j : ℕ} {place : Place} (above : Reaches w i j)
      (hmounted : w.mounted ⟨mount, j⟩ = some place) : Reaches w i place.object

/-- What is looked up is among the entries, by induction on the list. -/
theorem mem_of_lookup {α β : Type} [BEq α] [LawfulBEq α] {entries : List (α × β)} {key : α}
    {value : β} (h : entries.lookup key = some value) : (key, value) ∈ entries := by
  obtain ⟨before, after, rfl, -⟩ := List.lookup_eq_some_iff.mp h
  exact List.mem_append_right before List.mem_cons_self

/-- A name designates something in a held directory only. -/
theorem World.held_of_named (h : w.named directory name = some seen) :
    ∃ place object, w.handles directory = some place ∧ w.objects place.object = some object ∧
      object.kind = .directory ∧ ∃ k, (name, k) ∈ object.entries ∧
        ((w.mounted ⟨place.mount, k⟩).getD ⟨place.mount, k⟩) = seen.place := by
  obtain ⟨entry, hentry, hsight⟩ := Option.bind_eq_some_iff.mp h
  obtain ⟨place, hplace, hentry⟩ := Option.bind_eq_some_iff.mp hentry
  obtain ⟨object, hobject, hlookup⟩ := Option.bind_eq_some_iff.mp hentry
  split at hlookup
  · rename_i hkind
    obtain ⟨k, hk, rfl⟩ := Option.map_eq_some_iff.mp hlookup
    exact ⟨place, object, hplace, hobject, hkind, k, mem_of_lookup hk,
      (World.sight_eq_some.mp hsight).2.symm⟩
  · cases hlookup

/-- What a name designates lies below what its directory lies below. -/
theorem Reaches.named (h : Reaches w i place.object) (hplace : w.handles directory = some place)
    (hnamed : w.named directory name = some seen) : Reaches w i seen.place.object := by
  obtain ⟨place', object, hplace', hobject, -, k, hmem, hseen⟩ := World.held_of_named hnamed
  obtain rfl : place = place' := Option.some.inj (hplace.symm.trans hplace')
  have hentry : Reaches w i k := h.entry hobject hmem
  cases hmounted : w.mounted ⟨place.mount, k⟩ with
  | none =>
    rw [hmounted, Option.getD_none] at hseen
    exact hseen ▸ hentry
  | some covering =>
    rw [hmounted, Option.getD_some] at hseen
    exact hseen ▸ hentry.mounted hmounted

/-- The handles that names lead to are handles of what lies below the root. -/
theorem Leads.reaches (h : Leads w root directory) (htop : w.handles root = some top)
    (hplace : w.handles directory = some place) : Reaches w top.object place.object := by
  induction h generalizing place with
  | root =>
    obtain rfl : top = place := Option.some.inj (htop.symm.trans hplace)
    exact .here
  | child above hheld hnamed same ih =>
    obtain ⟨hhandle, -⟩ := World.held_eq_some.mp hheld
    rw [hplace] at hhandle
    obtain ⟨parent, -, hparent, -⟩ := World.held_of_named hnamed
    rw [Option.some.inj hhandle, ← same]
    exact (ih hparent).named hparent hnamed

/-! ### What a removal may change

The relation between the world before and during a removal: directories below the root may
have lost entries, and everything else is as it was. -/

/-- An object that has lost entries, or none. -/
structure Object.Loses (before after : Object) : Prop where
  identity : after.identity = before.identity
  kind : after.kind = before.kind
  entries : after.entries.Sublist before.entries

/-- An object that is as it was has lost nothing. -/
theorem Object.Loses.refl (object : Object) : object.Loses object := ⟨rfl, rfl, .refl _⟩

/-- What is lost twice is lost: an object that lost entries of one that lost entries lost them all.
-/
theorem Object.Loses.trans {a b c : Object} (h : a.Loses b) (h' : b.Loses c) : a.Loses c :=
  ⟨h'.identity.trans h.identity, h'.kind.trans h.kind, h'.entries.trans h.entries⟩

/-- An object without one of its entries has lost that entry only. -/
theorem Object.loses_without (object : Object) (name : FileName) :
    object.Loses (object.without name) := ⟨rfl, rfl, List.filter_sublist⟩

/-- Directories that the object `i` reaches may have lost entries, and nothing else has
changed. -/
structure Thins (i : ℕ) (w w' : World) : Prop where
  mounted : w'.mounted = w.mounted
  loses : ∀ j before, w.objects j = some before →
    ∃ after, w'.objects j = some after ∧ before.Loses after
  absent : ∀ j, w.objects j = none → w'.objects j = none
  keeps : ∀ j object, w.objects j = some object → (object.kind = .directory → ¬Reaches w i j) →
    w'.objects j = some object

/-- Handles do not count: a world with the same objects and mounts is one that is thinned
trivially. -/
theorem Thins.of_objects (hobjects : w'.objects = w.objects) (hmounted : w'.mounted = w.mounted) :
    Thins i w w' where
  mounted := hmounted
  loses := fun j before h => ⟨before, (congrFun hobjects j).trans h, .refl before⟩
  absent := fun j h => (congrFun hobjects j).trans h
  keeps := fun j _ h _ => (congrFun hobjects j).trans h

/-- A world that is as it was is thinned by nothing. -/
theorem Thins.refl (w : World) : Thins i w w := .of_objects rfl rfl

/-- What is there afterwards was there before, with at least the entries it has now. -/
theorem Thins.before (h : Thins i w w') {after : Object} (hafter : w'.objects j = some after) :
    ∃ before, w.objects j = some before ∧ before.Loses after := by
  cases hbefore : w.objects j with
  | none =>
    rw [h.absent j hbefore] at hafter
    cases hafter
  | some before =>
    obtain ⟨after', hafter', hloses⟩ := h.loses j before hbefore
    obtain rfl : after = after' := Option.some.inj (hafter.symm.trans hafter')
    exact ⟨before, rfl, hloses⟩

/-- Where entries are lost nothing new is reached, by induction on the way. -/
theorem Thins.reaches {k : ℕ} (h : Thins i w w') (hreaches : Reaches w' k j) : Reaches w k j := by
  induction hreaches with
  | here => exact .here
  | entry above hobject hmem ih =>
    obtain ⟨before, hbefore, hloses⟩ := h.before hobject
    exact ih.entry hbefore (hloses.entries.subset hmem)
  | mounted above hmounted ih =>
    rw [h.mounted] at hmounted
    exact ih.mounted hmounted

/-- A world that is thinned twice is thinned, below the same object. -/
theorem Thins.trans (h : Thins i w w') (h' : Thins i w' w'') : Thins i w w'' where
  mounted := h'.mounted.trans h.mounted
  loses := by
    intro j before hbefore
    obtain ⟨middle, hmiddle, hloses⟩ := h.loses j before hbefore
    obtain ⟨after, hafter, hloses'⟩ := h'.loses j middle hmiddle
    exact ⟨after, hafter, hloses.trans hloses'⟩
  absent := fun j hj => h'.absent j (h.absent j hj)
  keeps := by
    intro j object hobject hapart
    refine h'.keeps j object (h.keeps j object hobject hapart) fun hkind hreaches => ?_
    exact hapart hkind (h.reaches hreaches)

/-- An entry of a directory below `i` is removed.  Only the directory's own object changes, and it
is one that the root reaches. -/
theorem thins_unlinked (hplace : w.handles directory = some place)
    (hreaches : Reaches w i place.object)
    (hkind : ∀ object, w.objects place.object = some object → object.kind = .directory) :
    Thins i w (w.unlinked directory name) := by
  have hobjects : ∀ j, (w.unlinked directory name).objects j =
      if j = place.object then (w.objects j).map (·.without name) else w.objects j := by
    intro j
    rw [World.unlinked, hplace]
    change World.changed w.objects place.object (·.without name) j = _
    by_cases hj : j = place.object
    · rw [if_pos hj, hj, World.changed, Function.update_self]
    · rw [if_neg hj, World.changed, Function.update_of_ne hj]
  refine ⟨?_, fun j before hbefore => ?_, fun j hj => ?_, fun j object hobject hapart => ?_⟩
  · rw [World.unlinked, hplace]
    rfl
  · rw [hobjects, hbefore]
    split
    · exact ⟨_, rfl, before.loses_without name⟩
    · exact ⟨_, rfl, .refl before⟩
  · rw [hobjects, hj, Option.map_none, ite_self]
  · rw [hobjects, if_neg, hobject]
    rintro rfl
    exact hapart (hkind object hobject) hreaches

/-! ### Runs that others leave alone

The step lemma and the run lemma for a removal that is left alone.  At its end the root was
found empty in the world as it is, so the root is empty. -/

section Runs

variable {N E ε : Type} {shows : N → Object → Prop} {compareMounts : Prop} {s s' : Scene}

/-- **What a careful call changes.**  The root stays held, and what it does not reach stays as it
was.  There is one case for each call: an unlink removes an entry of a directory that is held below
the root, and the others leave the objects. -/
theorem Acts.thins {c : DestroyCall} {r : c.Result N E} (h : Acts shows s c r s')
    (hcareful : careful root compareMounts c s) (hsteady : s.steady = true)
    (htop : s.world.handles root = some top) :
    s'.world.handles root = some top ∧ Thins top.object s.world s'.world := by
  have hsame (hworld : s'.world = s.world) :
      s'.world.handles root = some top ∧ Thins top.object s.world s'.world := by
    rw [hworld]
    exact ⟨htop, .refl _⟩
  have hperforms := h.performs
  cases c with
  | verifyScope => exact hsame hperforms
  | stat fd => exact hsame hperforms.1
  | statAt parent name => exact hsame hperforms.1
  | mountId fd => exact hsame hperforms.1
  | mountIdAt parent name => exact hsame hperforms.1
  | readDirectory directory => exact hsame hperforms.1
  | sync directory => exact hsame hperforms
  | openDirectory parent name =>
    cases r with
    | error e => exact hsame hperforms
    | ok fd =>
      obtain ⟨seen, -, -, hfree, hworld⟩ := hperforms
      have hne : root ≠ fd := by
        rintro rfl
        rw [htop] at hfree
        cases hfree
      rw [hworld, World.hold]
      split
      · exact ⟨(Function.update_of_ne hne _ _).trans htop, .of_objects rfl rfl⟩
      · exact ⟨htop, .refl _⟩
  | close fd =>
    have hne : root ≠ fd := fun heq => hcareful heq.symm
    rw [show s'.world = s.world.release fd from hperforms]
    exact ⟨(Function.update_of_ne hne _ _).trans htop, .of_objects rfl rfl⟩
  | unlink directory name removeDirectory =>
    cases r with
    | error e => exact hsame hperforms
    | ok u =>
      obtain ⟨seen, hscope, -⟩ := hcareful hsteady
      obtain ⟨place, object, hplace, hobject, hkind, -⟩ := World.held_of_named hscope.named
      rw [hperforms.2]
      refine ⟨?_, thins_unlinked hplace (hscope.leads.reaches htop hplace) fun object' h => ?_⟩
      · rw [World.unlinked, hplace]
        exact htop
      · rwa [Option.some.inj (h.symm.trans hobject)]

/-- A run that others leave alone, from the world `w`: it is steady throughout, holds its root,
and has changed only what the root reaches, since its beginning and since every listing that came
back empty. -/
structure Undisturbed (root : Fd) (top : Place) (w : World) (s : Scene) : Prop where
  steady : s.steady = true
  held : s.world.handles root = some top
  thins : Thins top.object w s.world
  emptied : ∀ fd w', .emptied fd w' ∈ s.history →
    w'.handles root = some top ∧ Thins top.object w' s.world

/-- A removal begins undisturbed, in the world that it finds. -/
theorem Undisturbed.start (htop : w.handles root = some top) :
    Undisturbed root top w (.start w) := ⟨rfl, htop, .refl w, nofun⟩

/-- **The step lemma.**  A careful call keeps a removal undisturbed: an unlink takes an entry of a
directory below the root, and the other calls take none. -/
theorem Undisturbed.step {c : DestroyCall} {r : c.Result N E} (h : Undisturbed root top w s)
    (hcareful : careful root compareMounts c s) (hacts : Acts shows s c r s') :
    Undisturbed root top w s' := by
  obtain ⟨htop, hthins⟩ := hacts.thins hcareful h.steady h.held
  refine ⟨?_, htop, h.thins.trans hthins, fun fd w' hmem => ?_⟩
  · rw [hacts.steady, h.steady, Bool.true_or]
  · rw [hacts.history, List.mem_append] at hmem
    rcases hmem with hnew | hold
    · obtain rfl : w' = s.world := eq_of_emptied hnew
      exact ⟨h.held, hthins⟩
    · obtain ⟨hheld, hbefore⟩ := h.emptied fd w' hold
      exact ⟨hheld, hbefore.trans hthins⟩

/-- **The run lemma.**  It is the induction over the calls of a run, complete or stopped. -/
theorem Ensures.undisturbed {α : Type} {P : α → Scene → Prop} {x : Removing N E ε α}
    (h : Ensures shows root compareMounts P x (.start w)) (htop : w.handles root = some top)
    (run : Visits (alone shows) x (.start w) s) : Undisturbed root top w s := by
  have hallowed : ∀ s c r s', (alone (E := E) shows).step s c r s' →
      (disturbed (E := E) shows).step s c r s' := fun _ _ _ _ => Acts.steps
  have hsafe : Safe (alone shows) (careful root compareMounts) _ x (.start w) :=
    Safe.restrict hallowed h
  exact Safe.of_visits (Undisturbed root top w) hsafe (.start htop)
    (fun s c r s' hcareful hs hacts => hs.step hcareful hacts) run

/-- A removal of what lies in `root` that others leave alone.  At every moment nothing has changed
but that directories below the root have lost entries, and where it returns the root has none. -/
structure DestroysAlone (shows : N → Object → Prop) (root : Fd) (x : Removing N E ε ℕ)
    (w : World) (top : Place) : Prop where
  thins : ∀ s, Visits (alone shows) x (.start w) s → Thins top.object w s.world
  empty : ∀ n s, Returns (alone shows) x (.start w) (.ok n) s →
    ∃ object, s.world.objects top.object = some object ∧ object.entries = []

/-- What the rules ensure of a removal makes it one that destroys its root's contents alone.  With
nobody else acting, each step of the run thins what the root reaches, and at the end the root is
empty in the world of its last listing. -/
theorem DestroysAlone.of_ensures {x : Removing N E ε ℕ} (htop : w.handles root = some top)
    (h : Ensures shows root compareMounts
      (fun n s => Advances n (.start w) s ∧ ∃ place identity, Emptied root place identity s)
      x (.start w)) : DestroysAlone shows root x w top where
  thins := fun s run => (h.undisturbed htop run).thins
  empty := by
    intro n s run
    have hempty := (Destroys.of_ensures h).empty n s
      (run.weaken fun _ _ _ _ => Acts.steps)
    obtain ⟨w', earlier, seen, hhistory, hheld, hentries⟩ := hempty
    obtain ⟨htop', hthins⟩ := (h.undisturbed htop run.visits).emptied root w'
      (hhistory ▸ List.mem_cons_self)
    obtain ⟨hhandle, hobject⟩ := World.held_eq_some.mp hheld
    obtain rfl : top = seen.place := Option.some.inj (htop'.symm.trans hhandle)
    obtain ⟨after, hafter, hloses⟩ := hthins.loses _ _ hobject
    refine ⟨after, hafter, List.sublist_nil.mp ?_⟩
    rw [← hentries]
    exact hloses.entries

/-- **Alone, a removal empties its root and changes nothing else.** -/
theorem removeRootContents_alone {w : World} {root : Fd} {top : Place}
    (htop : w.handles root = some top) (expected : FileIdentity) :
    (∀ expectedMount, DestroysAlone OnLinux.Shows root
      (OnLinux.removeRootContents root expected expectedMount) w top) ∧
    DestroysAlone OnMacOs.Shows root (OnMacOs.removeRootContents root expected) w top :=
  ⟨fun expectedMount => .of_ensures htop
      (OnLinux.ensures_removeRootContents w expected expectedMount),
    .of_ensures htop (OnMacOs.ensures_removeRootContents w expected)⟩

/-- The world that answers where it can is one of these, where nobody else acts. -/
theorem acts_respond {nodeOf : Object → N} (hshows : ∀ object, shows (nodeOf object) object)
    (s : Scene) (c : DestroyCall) :
    (alone shows).step s c (respond (E := E) nodeOf nobody s c).1
      (respond (E := E) nodeOf nobody s c).2 :=
  ⟨rfl, performs_answer hshows s.world c, rfl⟩

end Runs

end Destroy
end ThinWorkspace
