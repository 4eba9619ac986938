/-
# A walk adds up its tree

The two platforms walk a tree alike: an entry is counted, then its directory is walked or
its bytes are added.  `Walks` is what the theorems here use of either walk, and
`Walks.foldlM_iff` takes it to a single pass over the nodes of the tree, a directory before
what it holds.

The pass is a checked sum, so it ends exactly where the sums fit: `Walks.scan_iff`.
-/

import ThinWorkspace.Lib.Except
import ThinWorkspace.Space.StillTree

namespace ThinWorkspace
namespace Space

open ThinWorkspace.Core Lib Lib.Fallible Ports
open Btrfs (u64Max)

variable {ε : Type}

/-- What is added for one entry: it is counted, and charged if the limit is not passed. -/
def chargeEntry (charge : Stat → Totals → Option Totals) (totals : Totals) (node : Node) :
    Option Totals :=
  (countEntry totals).bind fun counted =>
    if counted.entries ≤ maxScanEntries then charge node.stat counted else none

/-- A walk of a tree.  `scan` walks a directory and `round` one of its entries, with so many
levels left; `charge` adds the bytes of a node. -/
structure Walks (charge : Stat → Totals → Option Totals) (AdmitsEntry AdmitsDirectory : Node → Prop)
    (scan : ℕ → Node → Totals → Except ε Totals)
    (round : ℕ → Node → Totals → FileName → Except ε Totals) : Prop where
  exhausted : ∀ {directory totals result}, scan 0 directory totals ≠ .ok result
  directory : ∀ {levels directory totals result},
    scan (levels + 1) directory totals = .ok result ↔
      totals.entries ≤ maxScanEntries ∧ AdmitsDirectory directory ∧ directory.IsDirectory ∧
        ∃ charged, charge directory.stat totals = some charged ∧
          directory.children.names.foldlM (round levels directory) charged = .ok result
  entry : ∀ {levels directory totals name node result},
    directory.children.find name = some node →
      (round levels directory totals name = .ok result ↔
        node.stat.device = directory.stat.device ∧ AdmitsEntry node ∧
          ∃ counted, countEntry totals = some counted ∧ counted.entries ≤ maxScanEntries ∧
            (node.IsDirectory ∧ scan levels node counted = .ok result ∨
              node.IsFile ∧ charge node.stat counted = some result))

namespace Walks

variable {charge : Stat → Totals → Option Totals} {AdmitsEntry AdmitsDirectory : Node → Prop}
variable {scan : ℕ → Node → Totals → Except ε Totals}
variable {round : ℕ → Node → Totals → FileName → Except ε Totals}

/-- What a walk asks of a node below the root. -/
def Plain (AdmitsEntry AdmitsDirectory : Node → Prop) (device : UInt64) (node : Node) : Prop :=
  node.stat.device = device ∧ AdmitsEntry node ∧
    (node.IsDirectory ∧ AdmitsDirectory node ∨ node.IsFile)

/-- An entry is counted, within the limit, and then charged.  This is the form in which the walks
use it: what is counted, the limit, and what is charged stand side by side. -/
theorem chargeEntry_eq_some {totals result : Totals} {node : Node} :
    chargeEntry charge totals node = some result ↔
      ∃ counted, countEntry totals = some counted ∧ counted.entries ≤ maxScanEntries ∧
        charge node.stat counted = some result := by
  unfold chargeEntry
  rw [Option.bind_eq_some_iff]
  refine exists_congr fun counted => and_congr_right fun _ => ?_
  split
  · rename_i hentries
    exact (and_iff_right hentries).symm
  · rename_i hentries
    constructor
    · rintro ⟨⟩
    · exact fun h => absurd h.1 hentries

/-- One round, where the walk of the directory of the entry is known.  The entry comes first and
everything below it afterwards, which is the preorder.  For a directory the walk goes down one
level, so the height of what is below has to fit into one level less. -/
theorem round_iff (h : Walks charge AdmitsEntry AdmitsDirectory scan round) {levels : ℕ}
    {directory node : Node} {name : FileName} {totals result : Totals}
    (hfind : directory.children.find name = some node)
    (hleaf : node.stat.fileType ≠ sIfdir → node.children = .nil)
    (hchildren : ∀ levels charged, node.children.names.foldlM (round levels node) charged =
        .ok result ↔
      (∀ other ∈ node.children.preorder,
        Plain AdmitsEntry AdmitsDirectory node.stat.device other) ∧
        node.children.height ≤ levels ∧
        node.children.preorder.foldlM (chargeEntry charge) charged = some result) :
    round levels directory totals name = .ok result ↔
      (∀ other ∈ node :: node.children.preorder,
        Plain AdmitsEntry AdmitsDirectory directory.stat.device other) ∧
      (if node.stat.fileType = sIfdir then node.children.height + 1 else 0) ≤ levels ∧
      (node :: node.children.preorder).foldlM (chargeEntry charge) totals = some result := by
  rw [h.entry hfind, List.forall_mem_cons, List.foldlM_cons, Option.bind_eq_bind,
    Option.bind_eq_some_iff]
  constructor
  · rintro ⟨hdevice, hadmits, counted, hcount, hentries, hnode⟩
    rcases hnode with ⟨hdirectory, hscan⟩ | ⟨hfile, hcharge⟩
    · cases levels with
      | zero => exact absurd hscan h.exhausted
      | succ levels =>
        obtain ⟨-, hadmitsDirectory, -, charged, hcharge, hrounds⟩ := h.directory.mp hscan
        obtain ⟨hplain, hheight, hfold⟩ := (hchildren levels charged).mp hrounds
        rw [hdevice] at hplain
        refine ⟨⟨⟨hdevice, hadmits, .inl ⟨hdirectory, hadmitsDirectory⟩⟩, hplain⟩, ?_, charged,
          chargeEntry_eq_some.mpr ⟨counted, hcount, hentries, hcharge⟩, hfold⟩
        rw [if_pos (show node.stat.fileType = sIfdir from hdirectory)]
        omega
    · have hnot : node.stat.fileType ≠ sIfdir := hfile.not_isDirectory
      have hnil : node.children = .nil := hleaf hnot
      refine ⟨⟨⟨hdevice, hadmits, .inr hfile⟩, ?_⟩, ?_, result,
        chargeEntry_eq_some.mpr ⟨counted, hcount, hentries, hcharge⟩, ?_⟩
      · rw [hnil]
        simp [Files.preorder]
      · rw [if_neg hnot]
        omega
      · rw [hnil]
        rfl
  · rintro ⟨⟨⟨hdevice, hadmits, hkind⟩, hplain⟩, hheight, charged, hentry, hfold⟩
    obtain ⟨counted, hcount, hentries, hcharge⟩ := chargeEntry_eq_some.mp hentry
    refine ⟨hdevice, hadmits, counted, hcount, hentries, ?_⟩
    rcases hkind with ⟨hdirectory, hadmitsDirectory⟩ | hfile
    · rw [if_pos (show node.stat.fileType = sIfdir from hdirectory)] at hheight
      obtain ⟨below, rfl⟩ : ∃ below, levels = below + 1 := ⟨levels - 1, by omega⟩
      rw [← hdevice] at hplain
      have hrounds := (hchildren below charged).mpr ⟨hplain, by omega, hfold⟩
      exact .inl ⟨hdirectory,
        h.directory.mpr ⟨hentries, hadmitsDirectory, hdirectory, charged, hcharge, hrounds⟩⟩
    · have hnil : node.children = .nil := hleaf hfile.not_isDirectory
      rw [hnil] at hfold
      obtain rfl : charged = result := Option.some.inj hfold
      exact .inr ⟨hfile, hcharge⟩

/-- **The entries of a directory are walked in one pass** over everything below it.  The induction
is on the files.  An entry gives one round, whose own walk is covered by the hypothesis on its
children, and the rest of the loop is covered by the hypothesis on the rest. -/
theorem foldlM_iff (h : Walks charge AdmitsEntry AdmitsDirectory scan round) {files : Files}
    (hfiles : files.WellFormed) {levels : ℕ} {directory : Node} {totals result : Totals}
    (hfind : ∀ entry ∈ files.entries, directory.children.find entry.1 = some entry.2) :
    files.names.foldlM (round levels directory) totals = .ok result ↔
      (∀ node ∈ files.preorder,
        Plain AdmitsEntry AdmitsDirectory directory.stat.device node) ∧
      files.height ≤ levels ∧
      files.preorder.foldlM (chargeEntry charge) totals = some result := by
  induction files generalizing levels directory totals result with
  | nil =>
    change Except.ok totals = Except.ok result ↔ _
    constructor
    · rintro ⟨⟩
      exact ⟨by simp [Files.preorder], Nat.zero_le _, rfl⟩
    · rintro ⟨-, -, hresult⟩
      exact congrArg Except.ok (Option.some.inj hresult)
  | entry name stat mount children rest ihc ihr =>
    obtain ⟨-, hleaf, hchildren, hrest⟩ := hfiles
    obtain ⟨hnode, hfind⟩ := List.forall_mem_cons.mp hfind
    have hround : ∀ after, round levels directory totals name = .ok after ↔ _ := fun after =>
      h.round_iff hnode hleaf fun levels charged =>
        ihc hchildren (Files.find_of_mem hchildren.nodup)
    have hloop : ∀ after,
        rest.names.foldlM (round levels directory) after = .ok result ↔ _ := fun after =>
      ihr hrest hfind
    change (name :: rest.names).foldlM (round levels directory) totals = .ok result ↔ _
    rw [List.foldlM_cons, bind_eq_ok]
    change _ ↔ (∀ node ∈ (_ :: children.preorder) ++ rest.preorder, _) ∧ max _ _ ≤ levels ∧
      ((_ :: children.preorder) ++ rest.preorder).foldlM _ totals = some result
    rw [List.forall_mem_append, List.foldlM_append, Option.bind_eq_bind, Option.bind_eq_some_iff,
      max_le_iff]
    constructor
    · rintro ⟨after, hhead, htail⟩
      obtain ⟨hplain, hheight, hfold⟩ := (hround after).mp hhead
      obtain ⟨hplain', hheight', hfold'⟩ := (hloop after).mp htail
      exact ⟨⟨hplain, hplain'⟩, ⟨hheight, hheight'⟩, after, hfold, hfold'⟩
    · rintro ⟨⟨hplain, hplain'⟩, ⟨hheight, hheight'⟩, after, hfold, hfold'⟩
      exact ⟨after, (hround after).mpr ⟨hplain, hheight, hfold⟩,
        (hloop after).mpr ⟨hplain', hheight', hfold'⟩⟩

end Walks
end Space
end ThinWorkspace
