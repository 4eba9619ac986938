/-
# Directory trees that other processes change

The calls of `crates/thinws-adapter-linux/src/destroy.rs` and of
`crates/thinws-adapter-macos/src/destroy.rs`, and the file system they are made in.  A
`World` holds the files and directories, what is mounted where, and the handles of this
process.  After every call other processes may do anything to it that leaves this
process its handles (`World.Alters`).

A `Scene` keeps beside the world whether others have left it alone since the checks began
that were made last, and what has been found empty and removed so far.  `Scoped` asks of a
removal what the property asks: others may act at any moment but between the checks directly
before an entry is removed and the removal.
-/

import Mathlib.Logic.Function.Basic
import ThinWorkspace.Apfs.Tree
import ThinWorkspace.Lib.Program

namespace ThinWorkspace
namespace Destroy

open ThinWorkspace.Core Lib Ports
open Linux (Errno)
open Btrfs (Fd DirEntry ReadDirFailure)
open Apfs (RawFileKind)

/-! ### The file system

Objects are told apart by device and inode, and a directory has names for objects.  A place
is an object as a mount shows it, so one object may be seen in several places.  Others may
change anything but the handles of this process. -/

/-- A file, a directory or a link, with the entries of a directory. -/
structure Object where
  device : UInt64
  inode : UInt64
  kind : RawFileKind
  entries : List (FileName × ℕ)
  unique : (entries.map Prod.fst).Nodup

namespace Object

/-- The device and the inode of an object, which no other object of the world has. -/
def identity (object : Object) : FileIdentity := ⟨object.device, object.inode⟩

/-- A directory after the name was removed from it. -/
def without (object : Object) (name : FileName) : Object where
  device := object.device
  inode := object.inode
  kind := object.kind
  entries := object.entries.filter fun entry => entry.1 ≠ name
  unique := object.unique.sublist (List.filter_sublist.map _)

/-- A directory without one of its entries is the same object. -/
theorem identity_without (object : Object) (name : FileName) :
    (object.without name).identity = object.identity := rfl

/-- A directory after the name was given to an object in it. -/
def add (object : Object) (name : FileName) (child : ℕ)
    (h : name ∉ object.entries.map Prod.fst) : Object where
  device := object.device
  inode := object.inode
  kind := object.kind
  entries := (name, child) :: object.entries
  unique := List.nodup_cons.mpr ⟨h, object.unique⟩

end Object

/-- An object as a mount shows it: the same object may be seen through several mounts. -/
structure Place where
  mount : UInt64
  object : ℕ
deriving DecidableEq

/-- What a call finds at a place: the object there, and the mount it is seen through. -/
structure Sight where
  place : Place
  object : Object

/-- The file system with the handles of this process.  No two objects have one device and
inode, and the object of a handle stays as long as the handle. -/
structure World where
  objects : ℕ → Option Object
  mounted : Place → Option Place
  handles : Fd → Option Place
  identified : ∀ i j a b, objects i = some a → objects j = some b → a.identity = b.identity → i = j
  present : ∀ fd place, handles fd = some place → (objects place.object).isSome

namespace World

variable (w : World)

/-- What is at a place, if its object is there at all. -/
def sight (place : Place) : Option Sight := (w.objects place.object).map (Sight.mk place)

/-- What is held: the place of an open handle, with the object it still leads to. -/
def held (fd : Fd) : Option Sight := (w.handles fd).bind w.sight

/-- The entry of a directory, below anything mounted over it. -/
def entry (place : Place) (name : FileName) : Option Place :=
  (w.objects place.object).bind fun directory =>
    if directory.kind = .directory then
      (directory.entries.lookup name).map (Place.mk place.mount)
    else none

/-- What a name designates in a held directory.  A link is not followed. -/
def named (directory : Fd) (name : FileName) : Option Sight :=
  ((w.handles directory).bind (w.entry · name)).bind fun place =>
    w.sight ((w.mounted place).getD place)

/-- What `unlinkat` can remove: an entry with nothing mounted over it, and with
`AT_REMOVEDIR` an empty directory. -/
structure Removable (directory : Fd) (name : FileName) (asDirectory : Bool) (seen : Sight) :
    Prop where
  named : w.named directory name = some seen
  uncovered : (w.handles directory).bind (w.entry · name) = some seen.place
  kind : seen.object.kind = .directory ↔ asDirectory = true
  empty : asDirectory = true → seen.object.entries = []

/-- The objects after one of them was changed. -/
def changed (objects : ℕ → Option Object) (i : ℕ) (f : Object → Object) : ℕ → Option Object :=
  Function.update objects i ((objects i).map f)

/-- An object after a change was there before, with the same identity. -/
theorem changed_eq_some {objects : ℕ → Option Object} {i j : ℕ} {f : Object → Object}
    (hf : ∀ a, (f a).identity = a.identity) {a : Object} (h : changed objects i f j = some a) :
    ∃ b, objects j = some b ∧ b.identity = a.identity := by
  by_cases hj : j = i
  · subst hj
    rw [changed, Function.update_self] at h
    obtain ⟨b, hb, rfl⟩ := Option.map_eq_some_iff.mp h
    exact ⟨b, hb, (hf b).symm⟩
  · rw [changed, Function.update_of_ne hj] at h
    exact ⟨a, h, rfl⟩

/-- A change that keeps identities leaves them told apart. -/
theorem identified_changed {i : ℕ} {f : Object → Object} (hf : ∀ a, (f a).identity = a.identity)
    (j k : ℕ) (a b : Object) (ha : changed w.objects i f j = some a)
    (hb : changed w.objects i f k = some b) (hab : a.identity = b.identity) : j = k := by
  obtain ⟨a', ha', hae⟩ := changed_eq_some hf ha
  obtain ⟨b', hb', hbe⟩ := changed_eq_some hf hb
  exact w.identified j k a' b' ha' hb' (hae.trans (hab.trans hbe.symm))

/-- A change neither adds nor removes an object. -/
theorem isSome_changed {objects : ℕ → Option Object} {i j : ℕ} {f : Object → Object} :
    (changed objects i f j).isSome = (objects j).isSome := by
  by_cases hj : j = i
  · subst hj
    rw [changed, Function.update_self, Option.isSome_map]
  · rw [changed, Function.update_of_ne hj]

/-- Handles have objects after a change too. -/
theorem present_changed {i : ℕ} {f : Object → Object} (fd : Fd) (place : Place)
    (h : w.handles fd = some place) : (changed w.objects i f place.object).isSome := by
  rw [isSome_changed]
  exact w.present fd place h

/-- The world after an object was changed and has kept its identity. -/
def change (i : ℕ) (f : Object → Object) (hf : ∀ a, (f a).identity = a.identity) : World where
  objects := changed w.objects i f
  mounted := w.mounted
  handles := w.handles
  identified := w.identified_changed hf
  present := w.present_changed

/-- The world after `unlinkat`: the entry is gone from its directory, and the object stays as it
is. -/
def unlinked (directory : Fd) (name : FileName) : World :=
  match w.handles directory with
  | none => w
  | some place => w.change place.object (·.without name) fun object => object.identity_without name

/-- Handles have objects with one handle more. -/
theorem present_hold {fd : Fd} {place : Place} (h : (w.objects place.object).isSome) (other : Fd)
    (p : Place) (hp : Function.update w.handles fd (some place) other = some p) :
    (w.objects p.object).isSome := by
  by_cases hfd : other = fd
  · rw [hfd, Function.update_self] at hp
    cases hp
    exact h
  · rw [Function.update_of_ne hfd] at hp
    exact w.present other p hp

/-- The world with another handle, for an object that is there. -/
def hold (fd : Fd) (place : Place) : World :=
  if h : (w.objects place.object).isSome then
    ⟨w.objects, w.mounted, Function.update w.handles fd (some place), w.identified,
      w.present_hold h⟩
  else w

/-- Handles have objects with one handle less. -/
theorem present_release {fd : Fd} (other : Fd) (p : Place)
    (hp : Function.update w.handles fd none other = some p) : (w.objects p.object).isSome := by
  by_cases hfd : other = fd
  · rw [hfd, Function.update_self] at hp
    cases hp
  · rw [Function.update_of_ne hfd] at hp
    exact w.present other p hp

/-- The world after a handle was closed; nothing else changes. -/
def release (fd : Fd) : World :=
  ⟨w.objects, w.mounted, Function.update w.handles fd none, w.identified, w.present_release⟩

/-- `fd` is a handle of the object with that identity, at that place. -/
def Holds (fd : Fd) (place : Place) (identity : FileIdentity) : Prop :=
  ∃ object, w.held fd = some ⟨place, object⟩ ∧ object.identity = identity

/-- The handles of one world are handles of the same objects in another. -/
def Keeps (w w' : World) : Prop :=
  ∀ fd place identity, w.Holds fd place identity → w'.Holds fd place identity

/-- What other processes may do: anything that leaves this process its handles. -/
structure Alters (w w' : World) : Prop where
  handles : w'.handles = w.handles
  keeps : w.Keeps w'

end World

/-! ### Calls

One type of calls for both platforms, with the type of metadata and of errors left open.  A
call has its effect, and then others may act; `steady` remembers whether they did, since the
row of checks began. -/

/-- One system call, the end of a handle, or the caller's `verify_scope`. -/
inductive DestroyCall where
  | verifyScope
  | openDirectory (parent : Fd) (name : FileName)
  | close (fd : Fd)
  | stat (fd : Fd)
  | statAt (parent : Fd) (name : FileName)
  | mountId (fd : Fd)
  | mountIdAt (parent : Fd) (name : FileName)
  | readDirectory (directory : Fd)
  | unlink (parent : Fd) (name : FileName) (removeDirectory : Bool)
  | sync (directory : Fd)
deriving DecidableEq

/-- What a call returns, where `N` is what is kept of a `stat` and `E` is the error of
`verify_scope`. -/
@[reducible] def DestroyCall.Result (N E : Type) : DestroyCall → Type
  | .verifyScope => Except E Unit
  | .openDirectory _ _ => Except Errno Fd
  | .close _ => Unit
  | .stat _ => Except Errno N
  | .statAt _ _ => Except Errno N
  | .mountId _ => Except Errno (Option UInt64)
  | .mountIdAt _ _ => Except Errno (Option UInt64)
  | .readDirectory _ => Except ReadDirFailure (List DirEntry)
  | .unlink _ _ _ => Except Errno Unit
  | .sync _ => Except Errno Unit

/-- The call is a check: it looks at the scope, at a handle or at a name, and does nothing. -/
def DestroyCall.checks : DestroyCall → Bool
  | .verifyScope | .stat _ | .statAt _ _ | .mountId _ | .mountIdAt _ _ => true
  | .openDirectory _ _ | .close _ | .readDirectory _ | .unlink _ _ _ | .sync _ => false

/-- A row of checks begins with this call or behind it: with `verify_scope`, and behind any
call that is no check. -/
def DestroyCall.begins (c : DestroyCall) : Bool := c = .verifyScope || !c.checks

variable {N E : Type}

/-- What a call does, before others do anything.  `verify_scope` only looks. -/
def Performs (shows : N → Object → Prop) (w : World) :
    (c : DestroyCall) → c.Result N E → World → Prop
  | .verifyScope, _, w' => w' = w
  | .openDirectory parent name, .ok fd, w' =>
    ∃ seen, w.named parent name = some seen ∧ seen.object.kind ≠ .symbolicLink ∧
      w.handles fd = none ∧ w' = w.hold fd seen.place
  | .openDirectory _ _, .error _, w' => w' = w
  | .close fd, _, w' => w' = w.release fd
  | .stat fd, r, w' =>
    w' = w ∧ ∀ node, r = .ok node → ∃ seen, w.held fd = some seen ∧ shows node seen.object
  | .statAt parent name, r, w' =>
    w' = w ∧ ∀ node, r = .ok node →
      ∃ seen, w.named parent name = some seen ∧ shows node seen.object
  | .mountId fd, r, w' =>
    w' = w ∧ ∀ mount, r = .ok (some mount) →
      ∃ seen, w.held fd = some seen ∧ seen.place.mount = mount
  | .mountIdAt parent name, r, w' =>
    w' = w ∧ ∀ mount, r = .ok (some mount) →
      ∃ seen, w.named parent name = some seen ∧ seen.place.mount = mount
  | .readDirectory directory, r, w' =>
    w' = w ∧ ∀ entries, r = .ok entries → entries.filterMap DirEntry.name? = [] →
      ∃ seen, w.held directory = some seen ∧ seen.object.entries = []
  | .unlink parent name removeDirectory, .ok _, w' =>
    (∃ seen, w.Removable parent name removeDirectory seen) ∧ w' = w.unlinked parent name
  | .unlink _ _ _, .error _, w' => w' = w
  | .sync _, _, w' => w' = w

/-- What is kept of a run: that a listing came back empty, and that an entry was removed,
each with the world it happened in.  Of a removal, also whether others had left the world alone
since the checks began that were made directly before it. -/
inductive Moment where
  | emptied (directory : Fd) (w : World)
  | removed (directory : Fd) (name : FileName) (removeDirectory steady : Bool) (w : World)

/-- Is it a removal, as opposed to a directory that was found empty? -/
def Moment.isRemoval : Moment → Bool
  | .emptied _ _ => false
  | .removed _ _ _ _ _ => true

/-- A moment of a run.  The history begins with what happened last.

`steady` says that others have done nothing since the row of checks began that ends here.  A
row ends with the next call that is no check, and a `verify_scope` begins it anew.  Behind a
call that is no check the row is empty, so there `steady` holds whatever others have done: a
removal without any check before it is one that others may have acted just before. -/
structure Scene where
  world : World
  steady : Bool
  history : List Moment

/-- What a call adds to the history. -/
def moments (s : Scene) : (c : DestroyCall) → c.Result N E → List Moment
  | .readDirectory directory, .ok entries =>
    if entries.filterMap DirEntry.name? = [] then [.emptied directory s.world] else []
  | .unlink directory name removeDirectory, .ok _ =>
    [.removed directory name removeDirectory s.steady s.world]
  | _, _ => []

/-- A call, and what others do before the next one. -/
structure Steps (shows : N → Object → Prop) (s : Scene) (c : DestroyCall) (r : c.Result N E)
    (s' : Scene) : Prop where
  history : s'.history = moments s c r ++ s.history
  world : ∃ w, Performs shows s.world c r w ∧
    ((s'.world = w ∧ s'.steady = (s.steady || c.begins)) ∨
      (w.Alters s'.world ∧ s'.steady = !c.checks))

/-- The file system, with other processes in it. -/
def disturbed (shows : N → Object → Prop) :
    Environment DestroyCall (DestroyCall.Result N E) Scene where
  step := Steps shows

/-! ### The scope of a removal

What it means that an entry was in scope when it was removed, and that a directory was
empty.  Neither mentions the code. -/

/-- The handle is the root, or names that the directories above it still have lead from the
root to it, through the handles of these directories. -/
inductive Leads (w : World) (root : Fd) : Fd → Prop
  | root : Leads w root root
  | child {parent child : Fd} {name : FileName} {held named : Sight} (above : Leads w root parent)
      (hheld : w.held child = some held) (hnamed : w.named parent name = some named)
      (same : named.place.object = held.place.object) : Leads w root child

/-- What a name in a held directory designates is in the scope of a removal below `root`:
on the device of the root and, where mounts are compared, on its mount. -/
structure InScope (w : World) (root : Fd) (compareMounts : Prop) (directory : Fd)
    (name : FileName) (seen : Sight) : Prop where
  leads : Leads w root directory
  named : w.named directory name = some seen
  device : ∃ top, w.held root = some top ∧ seen.object.device = top.object.device ∧
    (compareMounts → seen.place.mount = top.place.mount)

/-- A directory of this identity was found empty. -/
def FoundEmpty (history : List Moment) (identity : FileIdentity) : Prop :=
  ∃ fd w place, .emptied fd w ∈ history ∧ w.Holds fd place identity ∧
    ∀ seen, w.held fd = some seen → seen.object.entries = []

/-- Every entry that was removed, unless others acted between the removal and the checks
directly before it, was in scope at that moment, and if it was a directory, one found empty
before.  No check needs to have been made for this to bind: an entry that is removed without
one must be in scope whatever others did last. -/
def Scoped (root : Fd) (compareMounts : Prop) (history : List Moment) : Prop :=
  ∀ directory name removeDirectory w earlier,
    .removed directory name removeDirectory true w :: earlier <:+ history →
      ∃ seen, InScope w root compareMounts directory name seen ∧
        w.Removable directory name removeDirectory seen ∧
        (removeDirectory = true → FoundEmpty earlier seen.object.identity)

end Destroy
end ThinWorkspace
