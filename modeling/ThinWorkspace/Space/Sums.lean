/-
# The sums of a walk

What a walk adds up, with negative values as 0: the bytes of every file, and the blocks of
every inode the first time it is met.  `Walks.scan_iff` says when a walk returns, and that
it then has these sums over the whole tree.
-/

import Mathlib.Algebra.BigOperators.Ring.Finset
import Mathlib.Algebra.Order.BigOperators.Group.Finset
import ThinWorkspace.Lib.Checked
import ThinWorkspace.Space.Walk

namespace ThinWorkspace
namespace Space

open ThinWorkspace.Core Lib Ports
open Btrfs (u64Max)

/-! ### One node

The totals with one node more, whatever they come to; the checked sums of the code are these
where they stay within their limits.  The blocks of an inode are paid for by the first node
that shows it. -/

/-- The bytes that a node adds to the logical size. -/
def fileBytes (stat : Stat) : ℕ :=
  if stat.fileType = sIfdir then 0 else stat.size.toInt.toNat

/-- The bytes of its blocks, none where their number is negative. -/
def heldBytes (stat : Stat) : ℕ := (512 * stat.blocks.toInt).toNat

namespace Totals

variable {price : UInt64 × UInt64 → ℕ} {totals : Totals}

/-- The totals with the blocks of a node. -/
def paid (totals : Totals) (stat : Stat) : Totals :=
  { totals with
    allocated :=
      if (stat.device, stat.inode) ∈ totals.seenInodes then totals.allocated
      else totals.allocated + heldBytes stat
    seenInodes := insert (stat.device, stat.inode) totals.seenInodes }

/-- The totals with more bytes in files, and everything else as it was. -/
def grown (totals : Totals) (bytes : ℕ) : Totals :=
  { totals with logical := totals.logical + bytes }

/-- The totals with a node, whatever they come to. -/
def charged (totals : Totals) (stat : Stat) : Totals := (totals.grown (fileBytes stat)).paid stat

/-- The totals with one more entry, and everything else as it was. -/
def counted (totals : Totals) : Totals := { totals with entries := totals.entries + 1 }

/-- The totals with an entry and its bytes. -/
def add (totals : Totals) (node : Node) : Totals := totals.counted.charged node.stat

/-- The totals are within their limits, so that no step of the measurement gives up because of
them. -/
structure Fits (totals : Totals) : Prop where
  logical : totals.logical ≤ u64Max
  allocated : totals.allocated ≤ u64Max
  entries : totals.entries ≤ maxScanEntries

/-- Each inode that was met is paid for. -/
def Accounts (price : UInt64 × UInt64 → ℕ) (totals : Totals) : Prop :=
  totals.allocated = ∑ inode ∈ totals.seenInodes, price inode

/-- The accounts balance after a charge at the price of its inode. -/
theorem Accounts.charged {stat : Stat} (h : totals.Accounts price)
    (hprice : heldBytes stat = price (stat.device, stat.inode)) :
    (totals.charged stat).Accounts price := by
  unfold Accounts Totals.charged Totals.paid
  rw [hprice]
  exact ite_add_eq_sum h _

/-- The accounts balance after a node at the price of its inode. -/
theorem Accounts.add {node : Node} (h : totals.Accounts price)
    (hprice : heldBytes node.stat = price node.inode) : (totals.add node).Accounts price :=
  have hcounted : totals.counted.Accounts price := h
  hcounted.charged hprice

/-- A charge never lowers the allocated bytes. -/
theorem allocated_le_charged (totals : Totals) (stat : Stat) :
    totals.allocated ≤ (totals.charged stat).allocated := by
  unfold charged paid grown
  dsimp only
  split
  · exact le_rfl
  · omega

/-- Totals that fit with one node more fit without it. -/
theorem Fits.of_add {node : Node} (h : (totals.add node).Fits) : totals.Fits where
  logical := le_trans (Nat.le_add_right _ _) h.logical
  allocated := le_trans (allocated_le_charged totals.counted node.stat) h.allocated
  entries := le_trans (Nat.le_add_right _ _) h.entries

/-- The logical bytes of a list of nodes add up. -/
theorem logical_foldl_add (nodes : List Node) (totals : Totals) :
    (nodes.foldl add totals).logical =
      totals.logical + (nodes.map fun node => fileBytes node.stat).sum := by
  induction nodes generalizing totals with
  | nil => rfl
  | cons node nodes ih =>
    have hnode : (totals.add node).logical = totals.logical + fileBytes node.stat := rfl
    rw [List.foldl_cons, ih, List.map_cons, List.sum_cons, hnode]
    omega

/-- The entries of a list of nodes are counted. -/
theorem entries_foldl_add (nodes : List Node) (totals : Totals) :
    (nodes.foldl add totals).entries = totals.entries + nodes.length := by
  induction nodes generalizing totals with
  | nil => rfl
  | cons node nodes ih =>
    have hnode : (totals.add node).entries = totals.entries + 1 := rfl
    rw [List.foldl_cons, ih, List.length_cons, hnode]
    omega

/-- The inodes of a list of nodes are remembered. -/
theorem seenInodes_foldl_add (nodes : List Node) (totals : Totals) :
    (nodes.foldl add totals).seenInodes =
      totals.seenInodes ∪ (nodes.map Node.inode).toFinset := by
  induction nodes generalizing totals with
  | nil => exact (Finset.union_empty _).symm
  | cons node nodes ih =>
    have hnode : (totals.add node).seenInodes = insert node.inode totals.seenInodes := rfl
    rw [List.foldl_cons, ih, List.map_cons, List.toFinset_cons, hnode, Finset.insert_union,
      Finset.union_insert]

/-- The accounts balance after a list of nodes, each at the price of its inode. -/
theorem Accounts.foldl_add {nodes : List Node} (h : totals.Accounts price)
    (hprice : ∀ node ∈ nodes, heldBytes node.stat = price node.inode) :
    (nodes.foldl Totals.add totals).Accounts price := by
  induction nodes generalizing totals with
  | nil => exact h
  | cons node nodes ih =>
    obtain ⟨hnode, hnodes⟩ := List.forall_mem_cons.mp hprice
    exact ih (h.add hnode) hnodes

end Totals

/-! ### A tree

Over a whole tree the totals are sums over its files and over its inodes, in whatever order
the nodes are met. -/

namespace Node

/-- What the first node with an inode pays for it. -/
def price (root : Node) (inode : UInt64 × UInt64) : ℕ := (512 * root.blocksOf inode).toNat

/-- The sums over the whole tree: each file by its length, and each inode by its blocks. -/
def totals (root : Node) : Totals where
  logical := (root.nodes.map fun node => fileBytes node.stat).sum
  allocated := ∑ inode ∈ root.inodes, root.price inode
  entries := root.children.preorder.length
  seenInodes := root.inodes

end Node

namespace StillTree

variable (tree : StillTree)

/-- Every node has the blocks of its inode. -/
theorem blocksOf_inode {node : Node} (h : node ∈ tree.root.nodes) :
    tree.root.blocksOf node.inode = node.stat.blocks.toInt := by
  unfold Node.blocksOf
  cases hfind : tree.root.nodes.find? fun other => other.inode = node.inode with
  | none =>
    have hne := List.find?_eq_none.mp hfind node h
    simp at hne
  | some other =>
    have hinode : other.inode = node.inode := by
      simpa using List.find?_some hfind
    have hstat : other.stat = node.stat :=
      tree.linked other (List.mem_of_find?_eq_some hfind) node h hinode
    exact congrArg (fun stat : Stat => stat.blocks.toInt) hstat

/-- In a tree every node of an inode has its price, since links share their `stat`. -/
theorem heldBytes_eq_price {node : Node} (h : node ∈ tree.root.nodes) :
    heldBytes node.stat = tree.root.price node.inode := by
  rw [heldBytes, Node.price, tree.blocksOf_inode h]

/-- Adding the nodes of a tree one after the other yields its totals.  Each of the sums is the fold
of its own summands, and an inode is charged with the first of its names. -/
theorem foldl_add_eq_totals :
    tree.root.children.preorder.foldl Totals.add (Totals.start.charged tree.root.stat) =
      tree.root.totals := by
  have hroot : tree.root ∈ tree.root.nodes := List.mem_cons_self
  have hstart : Totals.start.Accounts tree.root.price := rfl
  have haccounts := (hstart.charged (tree.heldBytes_eq_price hroot)).foldl_add
    fun node hnode => tree.heldBytes_eq_price (List.mem_cons_of_mem _ hnode)
  have hlogical := Totals.logical_foldl_add tree.root.children.preorder
    (Totals.start.charged tree.root.stat)
  have hentries := Totals.entries_foldl_add tree.root.children.preorder
    (Totals.start.charged tree.root.stat)
  have hseen := Totals.seenInodes_foldl_add tree.root.children.preorder
    (Totals.start.charged tree.root.stat)
  have hinodes : (Totals.start.charged tree.root.stat).seenInodes ∪
      (tree.root.children.preorder.map Node.inode).toFinset = tree.root.inodes := by
    change insert tree.root.inode ∅ ∪ _ = _
    rw [Finset.insert_union, Finset.empty_union, Node.inodes, Node.nodes, List.map_cons,
      List.toFinset_cons]
  rw [hinodes] at hseen
  unfold Totals.Accounts at haccounts
  rw [hseen] at haccounts
  generalize tree.root.children.preorder.foldl Totals.add (Totals.start.charged tree.root.stat) =
    sums at *
  obtain ⟨logical, allocated, entries, seenInodes⟩ := sums
  simp only [Node.totals, Totals.mk.injEq]
  refine ⟨?_, haccounts, ?_, hseen⟩
  · rw [Node.nodes, List.map_cons, List.sum_cons]
    refine hlogical.trans ?_
    change 0 + fileBytes _ + _ = _
    omega
  · refine hentries.trans ?_
    change 0 + _ = _
    omega

end StillTree

/-! ### The walk

A walk charges node after node, so it returns exactly where the last totals fit.  No step on
the way can fail otherwise, as no amount is negative. -/

/-- `charge` adds the bytes of a node that is accepted, if the totals stay in their limits. -/
def Charges (charge : Stat → Totals → Option Totals) (Accepts : Stat → Prop) : Prop :=
  ∀ {price : UInt64 × UInt64 → ℕ} {stat totals result},
    heldBytes stat = price (stat.device, stat.inode) → totals.Accounts price → totals.Fits →
    (charge stat totals = some result ↔
      Accepts stat ∧ result = totals.charged stat ∧ result.Fits)

section Walk

variable {ε : Type} {charge : Stat → Totals → Option Totals} {Accepts : Stat → Prop}
variable {AdmitsEntry AdmitsDirectory : Node → Prop}
variable {scan : ℕ → Node → Totals → Except ε Totals}
variable {round : ℕ → Node → Totals → FileName → Except ε Totals}

/-- An entry is counted while the entries are within the limit. -/
theorem countEntry_eq_some {totals result : Totals} (h : totals.entries ≤ maxScanEntries) :
    countEntry totals = some result ↔ result = totals.counted := by
  have hsmall : totals.entries + 1 ≤ u64Max := by
    have hlimit : maxScanEntries + 1 ≤ u64Max := by decide
    omega
  rw [countEntry, addWithin, if_pos hsmall]
  exact ⟨fun hsome => (Option.some.inj hsome).symm, fun he => he ▸ rfl⟩

/-- `add_allocated`, once the bytes are known.  An inode that is known already changes nothing, and
a new one adds its bytes where they fit. -/
theorem addInode_eq_some {stat : Stat} {totals result : Totals} (h : totals.allocated ≤ u64Max) :
    addInode (stat.device, stat.inode) (heldBytes stat) totals = some result ↔
      result = totals.paid stat ∧ result.allocated ≤ u64Max := by
  unfold addInode Totals.paid
  split
  · rename_i hmem
    rw [Finset.insert_eq_of_mem hmem]
    constructor
    · rintro ⟨⟩
      exact ⟨rfl, h⟩
    · rintro ⟨rfl, -⟩
      rfl
  · rw [Option.map_eq_some_iff]
    constructor
    · rintro ⟨allocated, hsum, rfl⟩
      obtain ⟨rfl, hle⟩ := addWithin_eq_some.mp hsum
      exact ⟨rfl, hle⟩
    · rintro ⟨rfl, hle⟩
      exact ⟨_, addWithin_eq_some.mpr ⟨rfl, hle⟩, rfl⟩

/-- Logical bytes are added exactly if their sum fits in a counter. -/
theorem addLogical_eq_some {bytes : ℕ} {totals result : Totals} :
    addLogical bytes totals = some result ↔
      result = totals.grown bytes ∧ result.logical ≤ u64Max := by
  unfold addLogical
  rw [Option.map_eq_some_iff]
  constructor
  · rintro ⟨logical, hsum, rfl⟩
    obtain ⟨rfl, hle⟩ := addWithin_eq_some.mp hsum
    exact ⟨rfl, hle⟩
  · rintro ⟨rfl, hle⟩
    exact ⟨_, addWithin_eq_some.mpr ⟨rfl, hle⟩, rfl⟩

/-- The blocks that fit in the totals fit in a counter: they are there already where the
inode was met. -/
theorem heldBytes_le {price : UInt64 × UInt64 → ℕ} {stat : Stat} {totals : Totals}
    (hprice : heldBytes stat = price (stat.device, stat.inode)) (haccounts : totals.Accounts price)
    (h : totals.allocated ≤ u64Max) (hpaid : (totals.paid stat).allocated ≤ u64Max) :
    heldBytes stat ≤ u64Max := by
  by_cases hmem : (stat.device, stat.inode) ∈ totals.seenInodes
  · have hsum : price (stat.device, stat.inode) ≤ ∑ inode ∈ totals.seenInodes, price inode :=
      Finset.single_le_sum_of_canonicallyOrdered hmem
    rw [hprice]
    exact hsum.trans (haccounts ▸ h)
  · simp only [Totals.paid, if_neg hmem] at hpaid
    omega

/-- What is added for a node where its size and its blocks are known.  The directory and the file
differ only in the logical bytes, which a directory does not have. -/
theorem charge_iff {price : UInt64 × UInt64 → ℕ} {stat : Stat} {totals result : Totals}
    {pay : Totals → Option Totals} {size : Option ℕ} {AcceptsSize AcceptsBlocks : Prop}
    (hpay : ∀ totals result, totals.Accounts price → totals.allocated ≤ u64Max →
      (pay totals = some result ↔
        AcceptsBlocks ∧ result = totals.paid stat ∧ result.allocated ≤ u64Max))
    (hsize : ∀ bytes, size = some bytes ↔ AcceptsSize ∧ bytes = stat.size.toInt.toNat)
    (haccounts : totals.Accounts price) (hfits : totals.Fits) :
    (if stat.fileType = sIfdir then pay totals
      else size.bind fun bytes => (addLogical bytes totals).bind pay) = some result ↔
      ((stat.fileType ≠ sIfdir → AcceptsSize) ∧ AcceptsBlocks) ∧
        result = totals.charged stat ∧ result.Fits := by
  split
  · rename_i hdirectory
    have hcharged : totals.charged stat = totals.paid stat := by
      rw [Totals.charged, fileBytes, if_pos hdirectory]
      rfl
    rw [hpay totals result haccounts hfits.allocated, hcharged]
    constructor
    · rintro ⟨hblocks, rfl, hle⟩
      exact ⟨⟨fun hnot => absurd hdirectory hnot, hblocks⟩, rfl,
        ⟨hfits.logical, hle, hfits.entries⟩⟩
    · rintro ⟨⟨-, hblocks⟩, rfl, hresult⟩
      exact ⟨hblocks, rfl, hresult.allocated⟩
  · rename_i hfile
    have hbytes : fileBytes stat = stat.size.toInt.toNat := if_neg hfile
    have hgrownAccounts : (totals.grown stat.size.toInt.toNat).Accounts price := haccounts
    have hpayGrown := fun result => hpay _ result hgrownAccounts hfits.allocated
    rw [Totals.charged, hbytes, Option.bind_eq_some_iff]
    constructor
    · rintro ⟨bytes, hsome, hadd⟩
      obtain ⟨haccepts, rfl⟩ := (hsize bytes).mp hsome
      obtain ⟨grown, hgrown, hadd⟩ := Option.bind_eq_some_iff.mp hadd
      obtain ⟨rfl, hlogical⟩ := addLogical_eq_some.mp hgrown
      obtain ⟨hblocks, rfl, hle⟩ := (hpayGrown _).mp hadd
      exact ⟨⟨fun _ => haccepts, hblocks⟩, rfl, ⟨hlogical, hle, hfits.entries⟩⟩
    · rintro ⟨⟨haccepts, hblocks⟩, rfl, hresult⟩
      refine ⟨_, (hsize _).mpr ⟨haccepts hfile, rfl⟩, Option.bind_eq_some_iff.mpr
        ⟨_, addLogical_eq_some.mpr ⟨rfl, hresult.logical⟩, ?_⟩⟩
      exact (hpayGrown _).mpr ⟨hblocks, rfl, hresult.allocated⟩

/-- Counting and charging an entry adds its node exactly if the node is accepted and the totals
fit. -/
theorem Charges.chargeEntry (hcharge : Charges charge Accepts) {price : UInt64 × UInt64 → ℕ}
    {node : Node} {totals result : Totals} (hprice : heldBytes node.stat = price node.inode)
    (haccounts : totals.Accounts price) (hfits : totals.Fits) :
    chargeEntry charge totals node = some result ↔
      Accepts node.stat ∧ result = totals.add node ∧ result.Fits := by
  rw [Walks.chargeEntry_eq_some]
  have hcounted : totals.counted.Accounts price := haccounts
  constructor
  · rintro ⟨counted, hcount, hentries, hresult⟩
    obtain rfl := (countEntry_eq_some hfits.entries).mp hcount
    exact (hcharge hprice hcounted ⟨hfits.logical, hfits.allocated, hentries⟩).mp hresult
  · rintro ⟨haccepts, rfl, hresult⟩
    have hentries : totals.counted.entries ≤ maxScanEntries := hresult.entries
    exact ⟨totals.counted, (countEntry_eq_some hfits.entries).mpr rfl, hentries,
      (hcharge hprice hcounted ⟨hfits.logical, hfits.allocated, hentries⟩).mpr
        ⟨haccepts, rfl, hresult⟩⟩

/-- **When a walk returns, and what.**  It returns the sums over the whole tree.  The walk is the
fold of the charges over the preorder, so it returns what adding the nodes yields, as long as every
charge is accepted and every sum fits. -/
theorem Walks.scan_iff (h : Walks charge AdmitsEntry AdmitsDirectory scan round)
    (hcharge : Charges charge Accepts) (tree : StillTree) {levels : ℕ} {result : Totals} :
    scan (levels + 1) tree.root .start = .ok result ↔
      tree.root.IsDirectory ∧ AdmitsDirectory tree.root ∧
      (∀ node ∈ tree.root.children.preorder,
        Plain AdmitsEntry AdmitsDirectory tree.root.stat.device node) ∧
      tree.root.children.height ≤ levels ∧ (∀ node ∈ tree.root.nodes, Accepts node.stat) ∧
      result = tree.root.totals ∧ result.Fits := by
  have hroot : tree.root ∈ tree.root.nodes := List.mem_cons_self
  have hprice := tree.heldBytes_eq_price hroot
  have hstart : Totals.start.Accounts tree.root.price := rfl
  have hfits : Totals.start.Fits := ⟨Nat.zero_le _, Nat.zero_le _, Nat.zero_le _⟩
  have hbelow : ∀ node ∈ tree.root.children.preorder,
      heldBytes node.stat = tree.root.price node.inode := fun node hnode =>
    tree.heldBytes_eq_price (List.mem_cons_of_mem _ hnode)
  have hloop : ∀ charged : Totals, charged.Fits → charged.Accounts tree.root.price →
      (tree.root.children.preorder.foldlM (Space.chargeEntry charge) charged = some result ↔
        (∀ node ∈ tree.root.children.preorder, Accepts node.stat) ∧
          result = tree.root.children.preorder.foldl Totals.add charged ∧ result.Fits) := by
    intro charged hcharged haccounts
    refine foldlM_checked_iff (fun node hnode totals after haccounts hfits => ?_)
      (fun node hnode totals haccounts => ?_) (fun totals node hadd => hadd.of_add) haccounts
      hcharged
    · exact hcharge.chargeEntry (hbelow node hnode) haccounts hfits
    · exact haccounts.add (hbelow node hnode)
  rw [h.directory]
  constructor
  · rintro ⟨-, hadmits, hdirectory, charged, hchargeRoot, hrounds⟩
    obtain ⟨haccepts, rfl, hcharged⟩ := (hcharge hprice hstart hfits).mp hchargeRoot
    obtain ⟨hplain, hheight, hfold⟩ := (h.foldlM_iff tree.wellFormed
      (Files.find_of_mem tree.wellFormed.nodup)).mp hrounds
    obtain ⟨hacceptsAll, hresult, hresultFits⟩ :=
      (hloop _ hcharged (hstart.charged hprice)).mp hfold
    rw [tree.foldl_add_eq_totals] at hresult
    exact ⟨hdirectory, hadmits, hplain, hheight,
      List.forall_mem_cons.mpr ⟨haccepts, hacceptsAll⟩, hresult, hresultFits⟩
  · rintro ⟨hdirectory, hadmits, hplain, hheight, haccepts, hresult, hresultFits⟩
    obtain ⟨hacceptsRoot, hacceptsAll⟩ := List.forall_mem_cons.mp haccepts
    rw [← tree.foldl_add_eq_totals] at hresult
    have hcharged : (Totals.start.charged tree.root.stat).Fits :=
      bounded_of_foldl (fun totals node hadd => hadd.of_add) _ (hresult ▸ hresultFits)
    exact ⟨Nat.zero_le _, hadmits, hdirectory, _,
      (hcharge hprice hstart hfits).mpr ⟨hacceptsRoot, rfl, hcharged⟩,
      (h.foldlM_iff tree.wellFormed (Files.find_of_mem tree.wellFormed.nodup)).mpr
        ⟨hplain, hheight, (hloop _ hcharged (hstart.charged hprice)).mpr
          ⟨hacceptsAll, hresult, hresultFits⟩⟩⟩

/-- The conditions of a walk, together. -/
theorem walkable_of_plain {root : Node} (hdirectory : root.IsDirectory)
    (hplain : ∀ node ∈ root.children.preorder,
      Walks.Plain AdmitsEntry AdmitsDirectory root.stat.device node)
    (hheight : root.children.height ≤ maxScanDepth) (hfits : root.totals.Fits) :
    Walkable root where
  directory := hdirectory
  kinds := List.forall_mem_cons.mpr
    ⟨.inl hdirectory, fun node hnode => (hplain node hnode).2.2.imp_left And.left⟩
  device := List.forall_mem_cons.mpr ⟨rfl, fun node hnode => (hplain node hnode).1⟩
  depth := hheight
  entries := hfits.entries

end Walk

/-! ### Exact sums

Where nothing is negative, the totals of a walk are the sizes as the tree has them. -/

/-- Where no size is negative, the logical bytes are the sum of the sizes of the files.  The
induction is on the nodes: a directory contributes to neither side. -/
theorem sum_fileBytes {nodes : List Node}
    (hkinds : ∀ node ∈ nodes, node.IsDirectory ∨ node.IsFile)
    (hsizes : ∀ node ∈ nodes, node.IsFile → 0 ≤ node.stat.size.toInt) :
    ((nodes.map fun node => fileBytes node.stat).sum : ℤ) =
      ((nodes.filter fun node => node.IsFile).map fun node => node.stat.size.toInt).sum := by
  induction nodes with
  | nil => rfl
  | cons node nodes ih =>
    obtain ⟨hkind, hkinds⟩ := List.forall_mem_cons.mp hkinds
    obtain ⟨hsize, hsizes⟩ := List.forall_mem_cons.mp hsizes
    have hrest := ih hkinds hsizes
    rw [List.map_cons, List.sum_cons, Int.natCast_add, hrest]
    rcases hkind with hdirectory | hfile
    · have hnot : ¬node.IsFile := fun hfile => hfile.not_isDirectory hdirectory
      have hbytes : fileBytes node.stat = 0 := if_pos hdirectory
      rw [List.filter_cons_of_neg (by simpa using hnot), hbytes]
      simp
    · have hbytes : fileBytes node.stat = node.stat.size.toInt.toNat :=
        if_neg hfile.not_isDirectory
      rw [List.filter_cons_of_pos (by simpa using hfile), List.map_cons, List.sum_cons, hbytes,
        Int.toNat_of_nonneg (hsize hfile)]

/-- The sums of a walk are the exact ones where nothing is negative. -/
theorem StillTree.measured (tree : StillTree) (hwalkable : Walkable tree.root)
    (hnonnegative : tree.root.Nonnegative) (hfits : tree.root.totals.Fits) :
    Measured tree.root (UInt64.ofNat tree.root.totals.logical)
      (UInt64.ofNat tree.root.totals.allocated) where
  toWalkable := hwalkable
  nonnegative := hnonnegative
  logical_eq := by
    have hlt : tree.root.totals.logical < UInt64.size := Nat.lt_succ_of_le hfits.logical
    rw [UInt64.toNat_ofNat_of_lt' hlt]
    exact sum_fileBytes hwalkable.kinds hnonnegative.sizes
  allocated_eq := by
    have hlt : tree.root.totals.allocated < UInt64.size := Nat.lt_succ_of_le hfits.allocated
    rw [UInt64.toNat_ofNat_of_lt' hlt, Node.allocatedBytes, Node.totals, Nat.cast_sum]
    refine Finset.sum_congr rfl fun inode hinode => ?_
    obtain ⟨node, hnode, rfl⟩ := List.mem_map.mp (List.mem_toFinset.mp hinode)
    have hblocks : 0 ≤ node.stat.blocks.toInt := hnonnegative.blocks node hnode
    rw [Node.price, tree.blocksOf_inode hnode, Int.toNat_of_nonneg (by omega)]

end Space
end ThinWorkspace
