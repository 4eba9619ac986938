/-
# Trees that do not change

A tree that stays as it is while it is measured: every `stat` of a node is the same, an
open of a name is the node of that name, and an enumeration yields the names.  A call may
still fail, and time passes as it likes.  The nodes themselves serve as the handles of the
programs.

`Node.logicalBytes` and `Node.allocatedBytes` are the two sums that a measurement is about,
over the integers: nothing overflows in them and nothing is cut off.
-/

import Mathlib.Algebra.Ring.Int.Defs
import ThinWorkspace.Lib.Strict
import ThinWorkspace.Space.Measure

namespace ThinWorkspace
namespace Space

open ThinWorkspace.Core Lib Ports
open Linux (Errno)
open Btrfs (DirEntry ReadDirFailure u64Max)

/-! ### Nodes

A tree as data, with the `stat` of each node.  An inode may have several names, and all of
its nodes have one `stat`; the sums count its blocks once and its size under every name. -/

/-- The entries of a directory, each with what is below it. -/
inductive Files where
  | nil
  | entry (name : FileName) (stat : Stat) (mount : UInt64) (children rest : Files)
deriving DecidableEq

/-- A file or a directory with everything below it. -/
structure Node where
  stat : Stat
  mount : UInt64
  children : Files
deriving DecidableEq

/-- It is a directory, by the type in its `stat`. -/
def Node.IsDirectory (node : Node) : Prop := node.stat.fileType = sIfdir

instance (node : Node) : Decidable node.IsDirectory :=
  inferInstanceAs (Decidable (node.stat.fileType = sIfdir))

/-- It is a regular file or a symbolic link. -/
def Node.IsFile (node : Node) : Prop :=
  node.stat.fileType = sIfreg ∨ node.stat.fileType = sIflnk

instance (node : Node) : Decidable node.IsFile :=
  inferInstanceAs (Decidable (node.stat.fileType = sIfreg ∨ node.stat.fileType = sIflnk))

/-- A file is no directory. -/
theorem Node.IsFile.not_isDirectory {node : Node} (h : node.IsFile) : ¬node.IsDirectory := by
  intro hdirectory
  rcases h with h | h
  · exact absurd (hdirectory.symm.trans h) (by decide)
  · exact absurd (hdirectory.symm.trans h) (by decide)

/-- The inode of a node on its device. -/
def Node.inode (node : Node) : UInt64 × UInt64 := (node.stat.device, node.stat.inode)

namespace Files

/-- The entries themselves, each with its name, in the order of the directory. -/
def entries : Files → List (FileName × Node)
  | nil => []
  | entry name stat mount children rest => (name, ⟨stat, mount, children⟩) :: rest.entries

/-- The names of the entries, in the order of the directory. -/
def names (files : Files) : List FileName := files.entries.map Prod.fst

/-- The entry of a name, if the directory has one. -/
def find (name : FileName) (files : Files) : Option Node := files.entries.lookup name

/-- Everything below the directory, each directory before what it holds. -/
def preorder : Files → List Node
  | nil => []
  | entry _ stat mount children rest =>
    ⟨stat, mount, children⟩ :: (children.preorder ++ rest.preorder)

/-- How many directories lie in each other, which the limit of the depth is compared with. -/
def height : Files → ℕ
  | nil => 0
  | entry _ stat _ children rest =>
    max (if stat.fileType = sIfdir then children.height + 1 else 0) rest.height

/-- The names of a directory differ, and only a directory has entries. -/
def WellFormed : Files → Prop
  | nil => True
  | entry name stat _ children rest =>
    name ∉ rest.names ∧ (stat.fileType ≠ sIfdir → children = nil) ∧
      children.WellFormed ∧ rest.WellFormed

/-- In a well-formed directory no name occurs twice. -/
theorem WellFormed.nodup {files : Files} (h : files.WellFormed) : files.names.Nodup := by
  induction files with
  | nil => exact List.nodup_nil
  | entry name stat mount children rest _ ih => exact List.nodup_cons.mpr ⟨h.1, ih h.2.2.2⟩

/-- An entry is found under its name. -/
theorem find_of_mem {files : Files} (h : files.names.Nodup) :
    ∀ entry ∈ files.entries, files.find entry.1 = some entry.2 := by
  unfold find names at *
  generalize files.entries = entries at h ⊢
  induction entries with
  | nil => simp
  | cons head tail ih =>
    rw [List.map_cons, List.nodup_cons] at h
    intro entry hentry
    rcases List.mem_cons.mp hentry with rfl | hentry
    · exact List.lookup_cons_self
    · have hne : entry.1 ≠ head.1 := by
        intro he
        exact h.1 (he ▸ List.mem_map_of_mem hentry)
      rw [List.lookup_cons, beq_false_of_ne hne]
      exact ih h.2 entry hentry

/-- A directory has no more entries than nodes below it. -/
theorem length_entries_le (files : Files) : files.entries.length ≤ files.preorder.length := by
  induction files with
  | nil => exact le_rfl
  | entry name stat mount children rest _ ih =>
    simp only [entries, preorder, List.length_cons, List.length_append]
    omega

/-- Below an entry there are no more nodes than below its directory. -/
theorem length_preorder_le {files : Files} :
    ∀ node ∈ files.preorder, node.children.preorder.length ≤ files.preorder.length := by
  induction files with
  | nil => simp [preorder]
  | entry name stat mount children rest ihc ihr =>
    intro node hnode
    simp only [preorder, List.length_cons, List.length_append]
    rcases List.mem_cons.mp hnode with rfl | hnode
    · change children.preorder.length ≤ _
      omega
    · rcases List.mem_append.mp hnode with hnode | hnode
      · have hle := ihc node hnode
        omega
      · have hle := ihr node hnode
        omega

end Files

namespace Node

/-- The node and everything below it, in the order in which a measurement visits it. -/
def nodes (node : Node) : List Node := node :: node.children.preorder

/-- The blocks of an inode, as the first node that shows it has them. -/
def blocksOf (node : Node) (inode : UInt64 × UInt64) : ℤ :=
  (node.nodes.find? fun other => other.inode = inode).elim 0 fun other => other.stat.blocks.toInt

/-- The inodes of the tree, each once, however many names it has. -/
def inodes (node : Node) : Finset (UInt64 × UInt64) := (node.nodes.map inode).toFinset

/-- The sizes of all regular files and symbolic links, however often one is linked. -/
def logicalBytes (node : Node) : ℤ :=
  ((node.nodes.filter fun other => other.IsFile).map fun other => other.stat.size.toInt).sum

/-- 512 bytes for each block of each inode. -/
def allocatedBytes (node : Node) : ℤ := ∑ inode ∈ node.inodes, 512 * node.blocksOf inode

end Node

/-- A tree with its root, in which the links to one inode tell the same of it. -/
structure StillTree where
  root : Node
  wellFormed : root.children.WellFormed
  linked : ∀ node ∈ root.nodes, ∀ other ∈ root.nodes, node.inode = other.inode →
    node.stat = other.stat

/-! ### Trees that can be measured

What a scan asks of a tree, and what its result should be.  Neither definition mentions the
scan. -/

/-- A tree of directories, regular files and symbolic links on one device, within the limits
of a scan. -/
structure Walkable (root : Node) : Prop where
  directory : root.IsDirectory
  kinds : ∀ node ∈ root.nodes, node.IsDirectory ∨ node.IsFile
  device : ∀ node ∈ root.nodes, node.stat.device = root.stat.device
  depth : root.children.height ≤ maxScanDepth
  entries : root.children.preorder.length ≤ maxScanEntries

/-- No file has a negative size, and no node a negative number of blocks. -/
structure Node.Nonnegative (root : Node) : Prop where
  sizes : ∀ node ∈ root.nodes, node.IsFile → 0 ≤ node.stat.size.toInt
  blocks : ∀ node ∈ root.nodes, 0 ≤ node.stat.blocks.toInt

/-- A measurement of a tree is exact: both sums are those of the tree, and the tree is one that can
be measured. -/
structure Measured (root : Node) (logical allocated : UInt64) : Prop extends Walkable root where
  nonnegative : root.Nonnegative
  logical_eq : (logical.toNat : ℤ) = root.logicalBytes
  allocated_eq : (allocated.toNat : ℤ) = root.allocatedBytes

/-! ### What a call may tell

A call on the tree returns what is there, or fails.  A measurement is exact when every run
against such answers ends with the sums or with `Unknown`. -/

/-- The answer of a call that does not fail. -/
def answer : (c : SpaceCall Node) → c.Result
  | .elapsed => (0 : ℕ)
  | .fstat node => .ok node.stat
  | .statAt directory name =>
    match directory.children.find name with
    | some node => .ok node.stat
    | none => .error .noent
  | .mountId node => .ok (some node.mount)
  | .mountIdAt directory name =>
    match directory.children.find name with
    | some node => .ok (some node.mount)
    | none => .error .noent
  | .openDirectory directory name =>
    match directory.children.find name with
    | some node => if node.IsDirectory then .ok node else .error .noent
    | none => .error .noent
  | .readDirectory node =>
    .ok (.current :: .parent :: node.children.names.map .named)

/-- What a call may return: its answer, or a failure. -/
def Truthful : (c : SpaceCall Node) → c.Result → Prop
  | .elapsed, _ => True
  | .fstat node, result => ∀ stat, result = .ok stat → stat = node.stat
  | .statAt directory name, result => ∀ stat, result = .ok stat →
    ∃ node, directory.children.find name = some node ∧ stat = node.stat
  | .mountId node, result => ∀ mount, result = .ok (some mount) → mount = node.mount
  | .mountIdAt directory name, result => ∀ mount, result = .ok (some mount) →
    ∃ node, directory.children.find name = some node ∧ mount = node.mount
  | .openDirectory directory name, result => ∀ node, result = .ok node →
    directory.children.find name = some node ∧ node.IsDirectory
  | .readDirectory node, result => ∀ entries, result = .ok entries →
    entries.filterMap DirEntry.name? = node.children.names

/-- The call did not fail, it told what it was asked for, and the time was not over. -/
def Passes : (c : SpaceCall Node) → c.Result → Prop
  | .elapsed, time => (time : ℕ) ≤ maxScanDuration
  | .fstat _, result => ∃ stat, result = .ok stat
  | .statAt _ _, result => ∃ stat, result = .ok stat
  | .mountId _, result => ∃ mount, result = .ok (some mount)
  | .mountIdAt _ _, result => ∃ mount, result = .ok (some mount)
  | .openDirectory _ _, result => ∃ node, result = .ok node
  | .readDirectory _, result => ∃ entries, result = .ok entries

/-- The world of a tree that does not change. -/
def world : StillWorld (SpaceCall Node) SpaceCall.Result := ⟨answer, Truthful, Passes⟩

/-- Every run of a measurement of the tree ends with `Unknown`, or with the exact sums of a
tree that can be measured, every node `Mounted` as it should and no call having failed. -/
def Exact (measure : Measuring Node Empty WorkspaceSpace) (root : Node)
    (Mounted : Node → Prop) : Prop :=
  ∀ run space, Program.Traces measure run (.ok space) →
    (∀ exchange ∈ run, Truthful exchange.op exchange.result) →
    space = .unknown ∨
      ∃ logical allocated, space = .complete logical allocated ∧
        Measured root logical allocated ∧ (∀ node ∈ root.nodes, Mounted node) ∧
        ∀ exchange ∈ run, Passes exchange.op exchange.result

/-- A listing has the names of the directory, its dots left out. -/
theorem filterMap_listing (names : List FileName) :
    (DirEntry.current :: .parent :: names.map .named).filterMap DirEntry.name? = names := by
  change (names.map DirEntry.named).filterMap DirEntry.name? = names
  rw [List.filterMap_map]
  exact List.filterMap_some

/-- The answers are among what the calls may return. -/
theorem truthful_answer (c : SpaceCall Node) : Truthful c (answer c) := by
  cases c with
  | elapsed => trivial
  | fstat node => exact fun stat h => (Except.ok.inj h).symm
  | mountId node => exact fun mount h => (Option.some.inj (Except.ok.inj h)).symm
  | readDirectory node =>
    intro entries h
    rw [← Except.ok.inj h]
    exact filterMap_listing _
  | statAt directory name =>
    intro stat h
    simp only [answer] at h
    split at h
    · rename_i node hnode
      exact ⟨node, hnode, (Except.ok.inj h).symm⟩
    · cases h
  | mountIdAt directory name =>
    intro mount h
    simp only [answer] at h
    split at h
    · rename_i node hnode
      exact ⟨node, hnode, (Option.some.inj (Except.ok.inj h)).symm⟩
    · cases h
  | openDirectory directory name =>
    intro node h
    simp only [answer] at h
    split at h
    · rename_i found hfound
      split at h
      · rename_i hdirectory
        obtain rfl := Except.ok.inj h
        exact ⟨hfound, hdirectory⟩
      · cases h
    · cases h

end Space
end ThinWorkspace
