/-
# Measurements on macOS cut negative values off

Source: `raw_node_metadata` in `crates/thinws-adapter-macos/src/ffi.rs`, as the scan of
`space.rs` uses it.

`raw_node_metadata` reports a value that is no `u64` as `u64::MAX`, which the scan refuses,
but takes the larger of the value and 0 before it converts, so that no value is ever
reported so.  A negative size or block count is added as 0, and the measurement is complete
(`OnMacOs.exact_measureRoot_iff`).  On Linux the conversion itself is what refuses it.
-/

import ThinWorkspace.Space.Exact

namespace ThinWorkspace
namespace Space

open ThinWorkspace.Core Lib Lib.Program Ports
open Linux (Errno)
open Btrfs (DirEntry ReadDirFailure u64Max)
open Apfs (RawFileKind RawNodeMetadata)

/-- The tree could be measured if its negative values were 0. -/
structure Countable (root : Node) : Prop extends Walkable root where
  fits : root.totals.Fits

namespace OnMacOs

/-! ### Metadata

The metadata of macOS are converted when they are read.  A size or a block count that is
negative becomes 0, while one that is too large becomes a value that stands for the
overflow. -/

/-- A raw kind is a directory's exactly if the type bits are. -/
theorem rawFileKind_eq_directory {stat : Stat} :
    rawFileKind stat = .directory ↔ stat.fileType = sIfdir := by
  unfold rawFileKind
  split_ifs <;> simp_all

/-- A regular file and a symbolic link have kinds of their own, which the scan counts. -/
theorem rawFileKind_file {stat : Stat} (h : stat.fileType = sIfreg ∨ stat.fileType = sIflnk) :
    rawFileKind stat = .regularFile ∨ rawFileKind stat = .symbolicLink := by
  have hreg : sIfreg ≠ sIfdir := by decide
  have hlnk : sIflnk ≠ sIfdir ∧ sIflnk ≠ sIfreg := by decide
  unfold rawFileKind
  rcases h with h | h
  · rw [h, if_neg hreg, if_pos rfl]
    exact .inl rfl
  · rw [h, if_neg hlnk.1, if_neg hlnk.2, if_pos rfl]
    exact .inr rfl

/-- Only a regular file and a symbolic link have these kinds. -/
theorem file_of_rawFileKind {stat : Stat}
    (h : rawFileKind stat = .regularFile ∨ rawFileKind stat = .symbolicLink) :
    stat.fileType = sIfreg ∨ stat.fileType = sIflnk := by
  unfold rawFileKind at h
  split_ifs at h <;> simp_all

/-- A node has the identity that it has, so a quiet scan never finds it changed. -/
theorem sameIdentity_self (metadata : RawNodeMetadata) : sameIdentity metadata metadata = true := by
  simp [sameIdentity]

/-- The size of a file is never what stands for a failed conversion. -/
theorem size_rawNodeMetadata (stat : Stat) :
    (rawNodeMetadata stat).size.toNat = stat.size.toInt.toNat ∧
      (rawNodeMetadata stat).size.toNat ≠ u64Max := by
  have hbound : stat.size.toInt < 2 ^ 63 := stat.size.toInt_lt
  have hlt : stat.size.toInt.toNat < UInt64.size := by
    change _ < 18446744073709551616
    omega
  have hsize : (rawNodeMetadata stat).size.toNat = stat.size.toInt.toNat :=
    UInt64.toNat_ofNat_of_lt' hlt
  refine ⟨hsize, ?_⟩
  rw [hsize]
  change _ ≠ 18446744073709551615
  omega

/-- The blocks of a node are what stands for a failed conversion only where they overflow. -/
theorem allocatedBytes_rawNodeMetadata (stat : Stat) :
    ((rawNodeMetadata stat).allocatedBytes.toNat = u64Max ∧ u64Max < heldBytes stat) ∨
      ((rawNodeMetadata stat).allocatedBytes.toNat ≠ u64Max ∧
        (rawNodeMetadata stat).allocatedBytes.toNat = heldBytes stat ∧
        heldBytes stat ≤ u64Max) := by
  have hmax : u64Max = 18446744073709551615 := rfl
  have hheld : stat.blocks.toInt.toNat * 512 = heldBytes stat := by
    unfold heldBytes
    omega
  have hlt : min (stat.blocks.toInt.toNat * 512) u64Max < UInt64.size := by
    change _ < 18446744073709551616
    omega
  have hbytes : (rawNodeMetadata stat).allocatedBytes.toNat =
      min (stat.blocks.toInt.toNat * 512) u64Max := UInt64.toNat_ofNat_of_lt' hlt
  rw [hbytes, ← hheld]
  omega

/-! ### The scan is strict

The scan gives up at the first call that fails, as on Linux. -/

/-- Inspecting a node is strict: an answer that is an error fails the scan. -/
theorem strict_nodeMetadata {node : Node} : Strict world (nodeMetadata node) :=
  strict_fstat.bind fun _ => strict_pure

/-- Inspecting an entry is strict. -/
theorem strict_nodeMetadataAt {directory : Node} {name : FileName} :
    Strict world (nodeMetadataAt directory name) :=
  strict_statAt.bind fun _ => strict_pure

/-- Listing a directory is strict, within its limit. -/
theorem strict_readDirectoryBounded {directory : Node} {limit : ℕ} :
    Strict world (readDirectoryBounded directory limit) :=
  strict_readNames.bind fun _ => strict_require.bind fun _ => strict_pure

/-- Scanning a node is strict if the scan of a directory is. -/
theorem strict_scanNode {scanChild : Node → RawNodeMetadata → Totals → Scan Node Totals}
    {directory : Node} {name : FileName} {entry : RawNodeMetadata} {totals : Totals}
    (hchild : ∀ child metadata totals, Strict world (scanChild child metadata totals)) :
    Strict world (scanNode scanChild directory name entry totals) := by
  have hfile : Strict world (if entry.size.toNat = u64Max then throw eoverflow
      else orMissing eoverflow
        ((addLogical entry.size.toNat totals).bind (addAllocated entry)) : Scan Node Totals) := by
    split
    · exact strict_throw
    · exact strict_orMissing
  unfold scanNode
  split
  · exact strict_openDirectory.bind fun child => hchild child entry totals
  · exact hfile
  · exact hfile
  · exact strict_throw

/-- Scanning an entry is strict if the scan of a directory is. -/
theorem strict_scanEntry {scanChild : Node → RawNodeMetadata → Totals → Scan Node Totals}
    {directory : Node} {expected : RawNodeMetadata} {depth : ℕ} {totals : Totals}
    {name : FileName}
    (hchild : ∀ child metadata totals, Strict world (scanChild child metadata totals)) :
    Strict world (scanEntry scanChild directory expected depth totals name) :=
  strict_orMissing.bind fun _ => strict_requireLimits.bind fun _ =>
    strict_nodeMetadataAt.bind fun _ => strict_require.bind fun _ =>
      (strict_scanNode hchild).bind fun _ => strict_nodeMetadataAt.bind fun _ =>
        strict_require.bind fun _ => strict_pure

/-- The scan of a directory is strict at every depth, by induction on the levels that are left. -/
theorem strict_scanDirectory (levels : ℕ) (directory : Node) (expected : RawNodeMetadata)
    (totals : Totals) : Strict world (scanDirectory levels directory expected totals) := by
  induction levels generalizing directory expected totals with
  | zero => exact strict_requireLimits.bind fun _ => strict_throw
  | succ levels ih =>
    have hround : ∀ totals name, Strict world (scanEntry (scanDirectory levels) directory expected
        (maxScanDepth - levels) totals name) := fun _ _ => strict_scanEntry ih
    exact strict_requireLimits.bind fun _ => strict_nodeMetadata.bind fun _ =>
      strict_require.bind fun _ => strict_orMissing.bind fun _ =>
        strict_readDirectoryBounded.bind fun names =>
          (Strict.foldlM hround names _).bind fun _ => strict_nodeMetadata.bind fun _ =>
            strict_require.bind fun _ => strict_pure

/-- The whole scan is strict, so a run with other answers than those of the tree does not return.
-/
theorem strict_scanRoot {root : Node} : Strict world (scanRoot root) :=
  strict_nodeMetadata.mapError.bind fun _ => strict_require.bind fun _ =>
    (strict_scanDirectory _ _ _ _).mapError

/-! ### The scan is a walk

Where no call fails the scan is a walk, whose charge asks nothing of the sign of a value.  A
negative value is counted as 0 and the scan goes on, so it is exact for the trees that have
none. -/

/-- In a tree that does not change a node's metadata are those of its `stat`. -/
theorem evaluate_nodeMetadata {node : Node} :
    evaluate answer (nodeMetadata node) = .ok (rawNodeMetadata node.stat) := rfl

/-- In such a tree an entry's metadata are those of the node of that name. -/
theorem evaluate_nodeMetadataAt {directory node : Node} {name : FileName}
    (h : directory.children.find name = some node) :
    evaluate answer (nodeMetadataAt directory name) = .ok (rawNodeMetadata node.stat) :=
  evaluate_bind_ok.mpr ⟨node.stat, evaluate_statAt h, rfl⟩

/-- In such a tree a listing within the limit has the names of the directory. -/
theorem evaluate_readDirectoryBounded {directory : Node} {limit : ℕ} {names : List FileName} :
    evaluate answer (readDirectoryBounded directory limit) = .ok names ↔
      directory.children.names.length ≤ limit ∧ names = directory.children.names := by
  unfold readDirectoryBounded
  constructor
  · intro h
    obtain ⟨listed, hlisted, h⟩ := evaluate_bind_ok.mp h
    obtain rfl := Except.ok.inj (evaluate_readNames.symm.trans hlisted)
    obtain ⟨_, hlength, h⟩ := evaluate_bind_ok.mp h
    exact ⟨evaluate_require.mp hlength, (Except.ok.inj h).symm⟩
  · rintro ⟨hlength, rfl⟩
    refine evaluate_bind_ok.mpr ⟨_, evaluate_readNames, ?_⟩
    exact evaluate_bind_ok.mpr ⟨(), evaluate_require.mpr hlength, rfl⟩

/-- What the scan adds for a node: the allocated bytes, and for a file its size, both as they were
cut off. -/
def charge (stat : Stat) (totals : Totals) : Option Totals :=
  if stat.fileType = sIfdir then addAllocated (rawNodeMetadata stat) totals
  else (some (rawNodeMetadata stat).size.toNat).bind fun size =>
    (addLogical size totals).bind (addAllocated (rawNodeMetadata stat))

/-- **Nothing is asked of the sign of a value.** -/
theorem charges : Charges charge fun _ => True := by
  intro price stat totals result hprice haccounts hfits
  have hsize : ∀ bytes, some (rawNodeMetadata stat).size.toNat = some bytes ↔
      True ∧ bytes = stat.size.toInt.toNat := by
    intro bytes
    rw [(size_rawNodeMetadata stat).1, Option.some.injEq, true_and]
    exact eq_comm
  have hpay : ∀ totals result, totals.Accounts price → totals.allocated ≤ u64Max →
      (addAllocated (rawNodeMetadata stat) totals = some result ↔
        True ∧ result = totals.paid stat ∧ result.allocated ≤ u64Max) := by
    intro totals result haccounts hle
    rw [true_and]
    unfold addAllocated
    rcases allocatedBytes_rawNodeMetadata stat with ⟨hoverflow, hlarge⟩ | ⟨hno, hbytes, -⟩
    · rw [if_pos hoverflow]
      refine iff_of_false (fun hnone => by cases hnone) ?_
      rintro ⟨rfl, hpaid⟩
      have hsmall : heldBytes stat ≤ u64Max := heldBytes_le hprice haccounts hle hpaid
      omega
    · rw [if_neg hno, hbytes]
      exact addInode_eq_some hle
  refine (charge_iff hpay hsize haccounts hfits).trans (and_congr_left' ?_)
  exact iff_of_true ⟨fun _ => trivial, trivial⟩ trivial

/-- The scan of a directory, where no call fails. -/
def scan (levels : ℕ) (directory : Node) (totals : Totals) : Except Errno Totals :=
  evaluate answer (scanDirectory levels directory (rawNodeMetadata directory.stat) totals)

/-- One round of it: the scan of one entry, with the totals so far. -/
def round (levels : ℕ) (directory : Node) (totals : Totals) (name : FileName) :
    Except Errno Totals :=
  evaluate answer (scanEntry (scanDirectory levels) directory (rawNodeMetadata directory.stat)
    (maxScanDepth - levels) totals name)

/-- The scan of a file succeeds exactly where the charge does not overflow. -/
theorem scanFile_ok {node : Node} {totals result : Totals} (hfile : node.IsFile) :
    evaluate answer (if (rawNodeMetadata node.stat).size.toNat = u64Max then throw eoverflow
      else orMissing eoverflow ((addLogical (rawNodeMetadata node.stat).size.toNat totals).bind
        (addAllocated (rawNodeMetadata node.stat))) : Scan Node Totals) = .ok result ↔
      charge node.stat totals = some result := by
  have hnot : node.stat.fileType ≠ sIfdir := hfile.not_isDirectory
  rw [if_neg (size_rawNodeMetadata node.stat).2, evaluate_orMissing, charge, if_neg hnot]
  rfl

/-- The scan of a node is that of a directory or the charge of a file; nothing else is counted.
The kind is decided by the mode of the entry, and a node that is neither is refused. -/
theorem scanNode_ok {levels : ℕ} {directory node : Node} {name : FileName}
    {totals result : Totals} (hfind : directory.children.find name = some node) :
    evaluate answer (scanNode (scanDirectory levels) directory name (rawNodeMetadata node.stat)
        totals) = .ok result ↔
      node.IsDirectory ∧ scan levels node totals = .ok result ∨
        node.IsFile ∧ charge node.stat totals = some result := by
  have hkind : (rawNodeMetadata node.stat).kind = rawFileKind node.stat := rfl
  by_cases hdirectory : node.IsDirectory
  · have hnot : ¬node.IsFile := fun hfile => hfile.not_isDirectory hdirectory
    have hraw : rawFileKind node.stat = .directory := rawFileKind_eq_directory.mpr hdirectory
    rw [scanNode, hkind, hraw]
    change evaluate answer (Program.orFail id (call (.openDirectory directory name)) >>= _) = _ ↔ _
    rw [evaluate_bind, evaluate_openDirectory hfind hdirectory]
    simp only [hnot, false_and, or_false]
    exact (and_iff_right hdirectory).symm
  · simp only [hdirectory, false_and, false_or]
    by_cases hfile : node.IsFile
    · rw [and_iff_right hfile, ← scanFile_ok hfile]
      rcases rawFileKind_file hfile with hraw | hraw
      · rw [scanNode, hkind, hraw]
      · rw [scanNode, hkind, hraw]
    · refine iff_of_false (fun hok => ?_) fun h => hfile h.1
      unfold scanNode at hok
      split at hok
      · rename_i hraw
        exact hdirectory (rawFileKind_eq_directory.mp hraw)
      · rename_i hraw
        exact hfile (file_of_rawFileKind (.inl hraw))
      · rename_i hraw
        exact hfile (file_of_rawFileKind (.inr hraw))
      · cases hok

/-- A round succeeds exactly on the device of its directory, with an entry more that is within the
limit, and goes on with the node. -/
theorem round_ok {levels : ℕ} {directory node : Node} {name : FileName} {totals result : Totals}
    (hfind : directory.children.find name = some node) :
    round levels directory totals name = .ok result ↔
      node.stat.device = directory.stat.device ∧ True ∧
        ∃ counted, countEntry totals = some counted ∧ counted.entries ≤ maxScanEntries ∧
          (node.IsDirectory ∧ scan levels node counted = .ok result ∨
            node.IsFile ∧ charge node.stat counted = some result) := by
  have hstat := evaluate_nodeMetadataAt hfind
  unfold round scanEntry
  constructor
  · intro h
    obtain ⟨counted, hcount, h⟩ := evaluate_bind_ok.mp h
    obtain ⟨_, hlimits, h⟩ := evaluate_bind_ok.mp h
    obtain ⟨entry, hentry, h⟩ := evaluate_bind_ok.mp h
    obtain rfl := Except.ok.inj (hstat.symm.trans hentry)
    obtain ⟨_, hdevice, h⟩ := evaluate_bind_ok.mp h
    obtain ⟨after, hnode, h⟩ := evaluate_bind_ok.mp h
    obtain ⟨_, _, h⟩ := evaluate_bind_ok.mp h
    obtain ⟨_, _, h⟩ := evaluate_bind_ok.mp h
    obtain rfl := Except.ok.inj h
    exact ⟨evaluate_require.mp hdevice, trivial, counted, evaluate_orMissing.mp hcount,
      (evaluate_requireLimits.mp hlimits).2, (scanNode_ok hfind).mp hnode⟩
  · rintro ⟨hdevice, -, counted, hcount, hentries, hnode⟩
    refine evaluate_bind_ok.mpr ⟨counted, evaluate_orMissing.mpr hcount, ?_⟩
    refine evaluate_bind_ok.mpr ⟨(), evaluate_requireLimits.mpr ⟨Nat.sub_le _ _, hentries⟩, ?_⟩
    refine evaluate_bind_ok.mpr ⟨_, hstat, ?_⟩
    refine evaluate_bind_ok.mpr ⟨(), evaluate_require.mpr hdevice, ?_⟩
    refine evaluate_bind_ok.mpr ⟨result, (scanNode_ok hfind).mpr hnode, ?_⟩
    refine evaluate_bind_ok.mpr ⟨_, hstat, ?_⟩
    exact evaluate_bind_ok.mpr ⟨(), evaluate_require.mpr (sameIdentity_self _), rfl⟩

/-- The scan of a directory charges it and goes over its entries in order.  The limits come first,
then the kind, the charge of the directory itself and the rounds over its names. -/
theorem scan_ok {levels : ℕ} {directory : Node} {totals result : Totals} :
    scan (levels + 1) directory totals = .ok result ↔
      totals.entries ≤ maxScanEntries ∧ directory.children.names.length ≤ maxScanEntries ∧
        directory.IsDirectory ∧ ∃ charged, charge directory.stat totals = some charged ∧
          directory.children.names.foldlM (round levels directory) charged = .ok result := by
  unfold scan scanDirectory
  constructor
  · intro h
    obtain ⟨_, hlimits, h⟩ := evaluate_bind_ok.mp h
    obtain ⟨before, hbefore, h⟩ := evaluate_bind_ok.mp h
    obtain rfl := Except.ok.inj (evaluate_nodeMetadata.symm.trans hbefore)
    obtain ⟨_, hidentity, h⟩ := evaluate_bind_ok.mp h
    have hdirectory : directory.IsDirectory :=
      rawFileKind_eq_directory.mp (evaluate_require.mp hidentity).1
    obtain ⟨charged, hcharged, h⟩ := evaluate_bind_ok.mp h
    obtain ⟨names, hnames, h⟩ := evaluate_bind_ok.mp h
    obtain ⟨hlength, rfl⟩ := evaluate_readDirectoryBounded.mp hnames
    obtain ⟨after, hrounds, h⟩ := evaluate_bind_ok.mp h
    obtain ⟨_, _, h⟩ := evaluate_bind_ok.mp h
    obtain ⟨_, _, h⟩ := evaluate_bind_ok.mp h
    obtain rfl := Except.ok.inj h
    rw [evaluate_foldlM] at hrounds
    refine ⟨(evaluate_requireLimits.mp hlimits).2, hlength, hdirectory, charged, ?_, hrounds⟩
    exact (if_pos hdirectory).trans (evaluate_orMissing.mp hcharged)
  · rintro ⟨hentries, hlength, hdirectory, charged, hcharged, hrounds⟩
    have hcharged' : addAllocated (rawNodeMetadata directory.stat) totals = some charged :=
      (if_pos hdirectory).symm.trans hcharged
    refine evaluate_bind_ok.mpr ⟨(), evaluate_requireLimits.mpr ⟨Nat.sub_le _ _, hentries⟩, ?_⟩
    refine evaluate_bind_ok.mpr ⟨_, evaluate_nodeMetadata, ?_⟩
    refine evaluate_bind_ok.mpr ⟨(), evaluate_require.mpr
      ⟨rawFileKind_eq_directory.mpr hdirectory, sameIdentity_self _⟩, ?_⟩
    refine evaluate_bind_ok.mpr ⟨charged, evaluate_orMissing.mpr hcharged', ?_⟩
    refine evaluate_bind_ok.mpr ⟨_, evaluate_readDirectoryBounded.mpr ⟨hlength, rfl⟩, ?_⟩
    refine evaluate_bind_ok.mpr ⟨result, (evaluate_foldlM _ _).trans hrounds, ?_⟩
    refine evaluate_bind_ok.mpr ⟨_, evaluate_nodeMetadata, ?_⟩
    exact evaluate_bind_ok.mpr ⟨(), evaluate_require.mpr (sameIdentity_self _), rfl⟩

/-- The scan of macOS is a walk in the sense of `Walk`, with its own charge and without a condition
on mounts. -/
theorem walks : Walks charge (fun _ => True)
    (fun node => node.children.names.length ≤ maxScanEntries) scan round where
  exhausted := by
    intro directory totals result h
    obtain ⟨_, hlimits, _⟩ := evaluate_bind_ok.mp h
    have hdepth : maxScanDepth + 1 ≤ maxScanDepth := (evaluate_requireLimits.mp hlimits).1
    omega
  directory := scan_ok
  entry := round_ok

/-- The whole scan succeeds exactly where the walk of the root does. -/
theorem scanRoot_ok {root : Node} {result : Totals} :
    evaluate answer (scanRoot root) = .ok result ↔
      root.IsDirectory ∧ scan (maxScanDepth + 1) root .start = .ok result := by
  unfold scanRoot
  constructor
  · intro h
    obtain ⟨metadata, hmetadata, h⟩ := evaluate_bind_ok.mp h
    have hnode := evaluate_mapError_ok.mp hmetadata
    obtain rfl := Except.ok.inj (evaluate_nodeMetadata.symm.trans hnode)
    obtain ⟨_, hdirectory, h⟩ := evaluate_bind_ok.mp h
    exact ⟨rawFileKind_eq_directory.mp (evaluate_require.mp hdirectory),
      evaluate_mapError_ok.mp h⟩
  · rintro ⟨hdirectory, h⟩
    refine evaluate_bind_ok.mpr ⟨_, evaluate_mapError_ok.mpr evaluate_nodeMetadata, ?_⟩
    refine evaluate_bind_ok.mpr
      ⟨(), evaluate_require.mpr (rawFileKind_eq_directory.mpr hdirectory), ?_⟩
    exact evaluate_mapError_ok.mpr h

/-- **When a scan on macOS ends.**  The signs of the values do not matter to it.  The walk returns
by `Walks.scan_iff`; what is left are the bounds on the entries of each directory, which follow
from the bound on all of them. -/
theorem evaluate_scanRoot_iff (tree : StillTree) {result : Totals} :
    evaluate answer (scanRoot tree.root) = .ok result ↔
      Countable tree.root ∧ result = tree.root.totals := by
  rw [scanRoot_ok, walks.scan_iff charges tree]
  constructor
  · rintro ⟨hdirectory, -, -, hplain, hheight, -, rfl, hfits⟩
    exact ⟨⟨walkable_of_plain hdirectory hplain hheight hfits, hfits⟩, rfl⟩
  · rintro ⟨hcountable, rfl⟩
    have hlength : ∀ node ∈ tree.root.nodes,
        node.children.names.length ≤ maxScanEntries := by
      intro node hnode
      have hnames : node.children.names.length ≤ node.children.preorder.length := by
        rw [Files.names, List.length_map]
        exact node.children.length_entries_le
      have hbelow : node.children.preorder.length ≤ tree.root.children.preorder.length := by
        rcases List.mem_cons.mp hnode with rfl | hnode
        · exact le_rfl
        · exact Files.length_preorder_le node hnode
      exact hnames.trans (hbelow.trans hcountable.entries)
    refine ⟨hcountable.directory, hcountable.directory, hlength _ List.mem_cons_self, ?_,
      hcountable.depth, fun _ _ => trivial, rfl, hcountable.fits⟩
    intro node hnode
    have hmem : node ∈ tree.root.nodes := List.mem_cons_of_mem _ hnode
    exact ⟨hcountable.device node hmem, trivial,
      (hcountable.kinds node hmem).imp_left fun hdirectory => ⟨hdirectory, hlength node hmem⟩⟩

/-- A tree that could be measured is measured, its negative values as 0. -/
theorem measures_countable (tree : StillTree) (h : Countable tree.root) :
    ∃ run, Traces (measureRoot tree.root) run (.ok (.complete
        (UInt64.ofNat tree.root.totals.logical) (UInt64.ofNat tree.root.totals.allocated))) ∧
      ∀ exchange ∈ run, Truthful exchange.op exchange.result := by
  obtain ⟨run, hrun, hanswers⟩ := exists_traces_evaluate answer (measureRoot tree.root)
  have hscan : evaluate answer (scanRoot tree.root) = .ok tree.root.totals :=
    (evaluate_scanRoot_iff tree).mpr ⟨h, rfl⟩
  have hmeasure : evaluate answer (measureRoot tree.root) = .ok (.complete
      (UInt64.ofNat tree.root.totals.logical) (UInt64.ofNat tree.root.totals.allocated)) := by
    refine evaluate_bind_ok.mpr ⟨_, evaluate_attempt, ?_⟩
    rw [hscan]
    rfl
  refine ⟨run, hmeasure ▸ hrun, fun exchange hmem => ?_⟩
  rw [hanswers exchange hmem]
  exact truthful_answer exchange.op

/-- **On macOS a measurement is exact, or `Unknown`, unless a negative value is cut off** in a tree
that is measured so.  A tree that can be counted has a run that reports a figure, and a figure that
is exact means that no value is negative. -/
theorem exact_measureRoot_iff (tree : StillTree) :
    Exact (measureRoot tree.root) tree.root (fun _ => True) ↔
      tree.root.Nonnegative ∨ ¬Countable tree.root := by
  constructor
  · intro hexact
    by_contra hcut
    rw [not_or, not_not] at hcut
    obtain ⟨hnegative, hcountable⟩ := hcut
    obtain ⟨run, hrun, htrue⟩ := measures_countable tree hcountable
    rcases hexact run _ hrun htrue with hspace | ⟨_, _, _, hmeasured, _⟩
    · cases hspace
    · exact hnegative hmeasured.nonnegative
  · intro hgood
    refine exact_of_scan strict_scanRoot fun result hresult => ?_
    obtain ⟨hcountable, rfl⟩ := (evaluate_scanRoot_iff tree).mp hresult
    rcases hgood with hnonnegative | hnot
    · exact ⟨tree.measured hcountable.toWalkable hnonnegative hcountable.fits,
        fun _ _ => trivial⟩
    · exact absurd hcountable hnot

end OnMacOs

/-- **A measurement is exact, or `Unknown`**: on Linux of every tree, on macOS of the trees
without a negative value and of those that cannot be measured anyway. -/
theorem measure_exact_iff (tree : StillTree) :
    (∀ mount : UInt64,
      Exact (OnLinux.measureRoot tree.root mount) tree.root fun node => node.mount = mount) ∧
    (Exact (OnMacOs.measureRoot tree.root) tree.root (fun _ => True) ↔
      tree.root.Nonnegative ∨ ¬Countable tree.root) :=
  ⟨fun _ => OnLinux.exact_measureRoot tree, OnMacOs.exact_measureRoot_iff tree⟩

/-! ### A negative size

A file with a size of -1 is measured as one of size 0, and the result says that it is
complete. -/

/-- The letter `f` is a proper file name. -/
theorem normal_file : AbsolutePath.Normal [102] := by
  constructor <;> decide

/-- A directory whose only file reports a size of -1. -/
def negativeRoot : Node where
  stat := ⟨1, 2, 16877, 0, 0, 0, 0⟩
  mount := 1
  children := .entry ⟨[102], normal_file⟩ ⟨1, 3, 33188, -1, 0, 0, 0⟩ 1 .nil .nil

/-- The two nodes of the sample have different inodes. -/
theorem linked_negativeRoot : ∀ node ∈ negativeRoot.nodes, ∀ other ∈ negativeRoot.nodes,
    node.inode = other.inode → node.stat = other.stat := by
  decide

/-- The tree of the directory, which does not change while it is scanned. -/
def negativeTree : StillTree where
  root := negativeRoot
  wellFormed := ⟨List.not_mem_nil, fun _ => rfl, trivial, trivial⟩
  linked := linked_negativeRoot

/-- **A negative size is measured as 0**, and the measurement is complete: the size is clamped
where Linux would refuse it. -/
theorem measures_negative_size :
    (∃ run, Traces (OnMacOs.measureRoot negativeTree.root) run (.ok (.complete 0 0)) ∧
      ∀ exchange ∈ run, Truthful exchange.op exchange.result) ∧
    negativeTree.root.logicalBytes = -1 ∧
    ¬Exact (OnMacOs.measureRoot negativeTree.root) negativeTree.root fun _ => True := by
  have hcountable : Countable negativeTree.root := by
    refine ⟨⟨?_, ?_, ?_, ?_, ?_⟩, ⟨?_, ?_, ?_⟩⟩
    all_goals decide
  have hrun := OnMacOs.measures_countable negativeTree hcountable
  have hsize : negativeTree.root.logicalBytes = -1 := by decide
  refine ⟨hrun, hsize, fun hexact => ?_⟩
  obtain ⟨run, hrun, htrue⟩ := hrun
  rcases hexact run _ hrun htrue with hspace | ⟨logical, _, _, hmeasured, _⟩
  · cases hspace
  · have hlogical := hmeasured.logical_eq
    rw [hsize] at hlogical
    omega

end Space
end ThinWorkspace
