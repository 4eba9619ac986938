/-
# Measurements on Linux are exact

Every call of a scan is one the scan cannot do without (`OnLinux.strict_scanDirectory`), and
the scan is a walk that adds every size and every block count as it is
(`OnLinux.walks`, `OnLinux.charges`).  So a run of `measure_root` on a tree
that does not change ends with the exact sums, or with `Unknown`.
-/

import ThinWorkspace.Space.Sums

namespace ThinWorkspace
namespace Space

open ThinWorkspace.Core Lib Lib.Program Ports
open Linux (Errno)
open Btrfs (DirEntry ReadDirFailure u64Max)

/-! ### What both platforms use

Each part of a scan either passes on what the tree says or ends the scan.  `Strict` says the
first half for any answers, and the lemmas on `evaluate` compute the second for the answers
of the tree. -/

section Shared

variable {ε α : Type}

/-- A check that fails ends the scan, so a scan that succeeds has met it. -/
theorem strict_require {p : Prop} [Decidable p] {error : ε} :
    Strict world (require p error : Measuring Node ε Unit) := by
  unfold require
  split
  · exact strict_pure
  · exact strict_throw

/-- A value that is missing ends the scan, so a scan that went on had it. -/
theorem strict_orMissing {error : ε} {value : Option α} :
    Strict world (orMissing error value : Measuring Node ε α) := by
  cases value
  · exact strict_throw
  · exact strict_pure

/-- So does a limit that is exceeded, or a deadline that has passed. -/
theorem strict_requireLimits {error : ε} {depth : ℕ} {totals : Totals} :
    Strict world (requireLimits error depth totals : Measuring Node ε Unit) := by
  refine strict_perform_bind (fun time _ hpasses => ?_) (fun time _ hover => ?_) strict_require
  · have htime : (time : ℕ) ≤ maxScanDuration := hpasses
    have hnow : limitsExceeded depth totals.entries time =
        limitsExceeded depth totals.entries (0 : ℕ) := by
      unfold limitsExceeded
      rw [decide_eq_false (Nat.not_lt.mpr htime),
        decide_eq_false (Nat.not_lt.mpr (Nat.zero_le maxScanDuration))]
    exact congrArg (fun exceeded => require (exceeded = false) error) hnow
  · have htime : maxScanDuration < (time : ℕ) := Nat.lt_of_not_le hover
    refine ⟨error, if_neg ?_⟩
    unfold limitsExceeded
    rw [decide_eq_true htime, Bool.or_true]
    exact Bool.noConfusion

/-- A scan does not go on behind an `fstat` that has failed. -/
theorem strict_fstat {f : Errno → ε} {node : Node} :
    Strict world (Program.orFail f (call (.fstat node))) := by
  refine strict_perform_bind (fun result htrue hpasses => ?_) (fun result _ hfailed => ?_)
    strict_ofExcept
  · obtain ⟨stat, rfl⟩ := hpasses
    rw [htrue stat rfl]
    rfl
  · rcases result with error | stat
    · exact ⟨f error, rfl⟩
    · exact absurd ⟨stat, rfl⟩ hfailed

/-- Nor behind a `statat` that has failed: no call follows it. -/
theorem strict_statAt {f : Errno → ε} {directory : Node} {name : FileName} :
    Strict world (Program.orFail f (call (.statAt directory name))) := by
  refine strict_perform_bind (fun result htrue hpasses => ?_) (fun result _ hfailed => ?_)
    strict_ofExcept
  · obtain ⟨stat, rfl⟩ := hpasses
    obtain ⟨node, hfind, rfl⟩ := htrue stat rfl
    simp only [world, answer, hfind]
  · rcases result with error | stat
    · exact ⟨f error, rfl⟩
    · exact absurd ⟨stat, rfl⟩ hfailed

/-- Nor behind a directory that could not be opened. -/
theorem strict_openDirectory {f : Errno → ε} {directory : Node} {name : FileName} :
    Strict world (Program.orFail f (call (.openDirectory directory name))) := by
  refine strict_perform_bind (fun result htrue hpasses => ?_) (fun result _ hfailed => ?_)
    strict_ofExcept
  · obtain ⟨node, rfl⟩ := hpasses
    obtain ⟨hfind, hdirectory⟩ := htrue node rfl
    simp only [world, answer, hfind, if_pos hdirectory]
  · rcases result with error | node
    · exact ⟨f error, rfl⟩
    · exact absurd ⟨node, rfl⟩ hfailed

/-- Nor behind a listing that was not complete: no call follows it. -/
theorem strict_readNames {f : ReadDirFailure → ε} {directory : Node} :
    Strict world (readNames f directory) := by
  refine strict_perform_bind (fun result htrue hpasses => ?_) (fun result _ hfailed => ?_) trivial
  · obtain ⟨entries, rfl⟩ := hpasses
    have hentries : entries.filterMap DirEntry.name? = directory.children.names :=
      htrue entries rfl
    have hanswer := filterMap_listing directory.children.names
    exact congrArg Program.ret (hentries.trans hanswer.symm)
  · rcases result with error | entries
    · exact ⟨f error, rfl⟩
    · exact absurd ⟨entries, rfl⟩ hfailed

/-- In the tree that stands still a check passes where what it checks holds. -/
@[simp] theorem evaluate_require {p : Prop} [Decidable p] {error : ε} {u : Unit} :
    evaluate answer (require p error : Measuring Node ε Unit) = .ok u ↔ p := by
  unfold require
  split
  · rename_i h
    exact iff_of_true rfl h
  · rename_i h
    exact iff_of_false (fun hok => by cases hok) h

/-- In the tree that stands still a value is there where it is there. -/
@[simp] theorem evaluate_orMissing {error : ε} {value : Option α} {a : α} :
    evaluate answer (orMissing error value : Measuring Node ε α) = .ok a ↔ value = some a := by
  cases value with
  | none => exact iff_of_false (fun hok => by cases hok) (fun hsome => by cases hsome)
  | some b =>
    constructor
    · rintro ⟨⟩
      rfl
    · rintro ⟨⟩
      rfl

/-- Neither limit is exceeded: that of the depth and that of the entries. -/
@[simp] theorem evaluate_requireLimits {error : ε} {depth : ℕ} {totals : Totals} {u : Unit} :
    evaluate answer (requireLimits error depth totals : Measuring Node ε Unit) = .ok u ↔
      depth ≤ maxScanDepth ∧ totals.entries ≤ maxScanEntries := by
  refine evaluate_require.trans ?_
  change limitsExceeded depth totals.entries (0 : ℕ) = false ↔ _
  simp [limitsExceeded]

/-- A handle shows the node it is one of. -/
@[simp] theorem evaluate_fstat {f : Errno → ε} {node : Node} :
    evaluate answer (Program.orFail f (call (.fstat node))) = .ok node.stat := rfl

/-- A name shows the node that has it, by the `stat` of that node. -/
theorem evaluate_statAt {f : Errno → ε} {directory node : Node} {name : FileName}
    (h : directory.children.find name = some node) :
    evaluate answer (Program.orFail f (call (.statAt directory name))) = .ok node.stat := by
  change evaluate answer (ofExcept f (answer (.statAt directory name))) = _
  simp only [answer, h]
  rfl

/-- A directory is opened by its name, and the handle is the node itself. -/
theorem evaluate_openDirectory {f : Errno → ε} {directory node : Node} {name : FileName}
    (h : directory.children.find name = some node) (hdirectory : node.IsDirectory) :
    evaluate answer (Program.orFail f (call (.openDirectory directory name))) = .ok node := by
  change evaluate answer (ofExcept f (answer (.openDirectory directory name))) = _
  simp only [answer, h, if_pos hdirectory]
  rfl

/-- A listing has every name of the directory, and no other. -/
@[simp] theorem evaluate_readNames {f : ReadDirFailure → ε} {directory : Node} :
    evaluate answer (readNames f directory) = .ok directory.children.names :=
  congrArg Except.ok (filterMap_listing directory.children.names)

/-- A measurement is exact where its scan is: one in which some call fails ends with `Unknown`, and
one in which none fails is the evaluation of the scan in the tree that stands still. -/
theorem exact_of_scan {root : Node} {Mounted : Node → Prop} {scan : Measuring Node Unit Totals}
    (hstrict : Strict world scan)
    (hscan : ∀ result, evaluate answer scan = .ok result →
      Measured root (UInt64.ofNat result.logical) (UInt64.ofNat result.allocated) ∧
        ∀ node ∈ root.nodes, Mounted node) :
    Exact (do let result ← scan.attempt; pure (spaceOf result)) root Mounted := by
  intro run space hrun htrue
  obtain ⟨result, run', rest, rfl, hattempt, hend⟩ := traces_bind_ok.mp hrun
  obtain ⟨rfl, hspace⟩ := traces_pure.mp hend
  obtain ⟨outcome, houtcome, hscanRun⟩ := traces_attempt.mp hattempt
  obtain rfl := Except.ok.inj houtcome
  obtain rfl := Except.ok.inj hspace
  rw [List.append_nil] at htrue ⊢
  cases result with
  | error e => exact .inl rfl
  | ok totals =>
    obtain ⟨hevaluate, hpasses⟩ := hstrict.traces hscanRun htrue
    obtain ⟨hmeasured, hmounted⟩ := hscan totals hevaluate
    exact .inr ⟨_, _, rfl, hmeasured, hmounted, hpasses⟩

end Shared

/-! ### Linux

The parts of the Linux scan that are its own: the mounts, and the conversion of sizes that
refuses a negative one. -/

namespace OnLinux

variable {mount : UInt64}

/-- The mount of a handle is asked for by one call, whose failure ends the scan. -/
theorem strict_mountId {node : Node} : Strict world (mountId node) := by
  refine strict_perform_bind (fun result htrue hpasses => ?_) (fun result _ hfailed => ?_) trivial
  · obtain ⟨observed, rfl⟩ := hpasses
    rw [htrue observed rfl]
    rfl
  · rcases result with error | _ | observed
    · exact ⟨(), rfl⟩
    · exact ⟨(), rfl⟩
    · exact absurd ⟨observed, rfl⟩ hfailed

/-- The mount behind a name is asked for by one call, whose failure ends the scan. -/
theorem strict_mountIdAt {directory : Node} {name : FileName} :
    Strict world (mountIdAt directory name) := by
  refine strict_perform_bind (fun result htrue hpasses => ?_) (fun result _ hfailed => ?_)
    (strict_ofExcept.bind fun _ => strict_orMissing)
  · obtain ⟨observed, rfl⟩ := hpasses
    obtain ⟨node, hfind, rfl⟩ := htrue observed rfl
    simp only [world, answer, hfind]
  · rcases result with error | _ | observed
    · exact ⟨(), rfl⟩
    · exact ⟨(), rfl⟩
    · exact absurd ⟨observed, rfl⟩ hfailed

/-- A handle shows its mount. -/
theorem evaluate_mountId {node : Node} : evaluate answer (mountId node) = .ok node.mount := rfl

/-- A name shows the mount of the node that has it. -/
theorem evaluate_mountIdAt {directory node : Node} {name : FileName}
    (h : directory.children.find name = some node) :
    evaluate answer (mountIdAt directory name) = .ok node.mount := by
  refine evaluate_bind_ok.mpr ⟨some node.mount, ?_, rfl⟩
  change evaluate answer (ofExcept _ (answer (.mountIdAt directory name))) = _
  simp only [answer, h]
  rfl

section Strict

/-- What is counted for a node: a directory is opened and scanned, a file adds its size, and
anything else ends the scan. -/
theorem strict_scanNode {scanChild : Node → Stat → Totals → Scan Node Totals} {directory : Node}
    {name : FileName} {before : Stat} {totals : Totals}
    (hchild : ∀ child stat totals, Strict world (scanChild child stat totals)) :
    Strict world (scanNode scanChild directory name before totals) := by
  unfold scanNode
  split
  · exact strict_openDirectory.bind fun child => hchild child before totals
  · split
    · exact strict_orMissing
    · exact strict_throw

/-- One entry: the look, the mount, the limits, and the node itself. -/
theorem strict_scanEntry {scanChild : Node → Stat → Totals → Scan Node Totals} {directory : Node}
    {expected : Stat} {depth : ℕ} {totals : Totals} {name : FileName}
    (hchild : ∀ child stat totals, Strict world (scanChild child stat totals)) :
    Strict world (scanEntry scanChild directory expected mount depth totals name) :=
  strict_orMissing.bind fun _ => strict_requireLimits.bind fun _ =>
    strict_statAt.bind fun _ => strict_require.bind fun _ => strict_mountIdAt.bind fun _ =>
      strict_require.bind fun _ => (strict_scanNode hchild).bind fun _ =>
        strict_statAt.bind fun _ => strict_require.bind fun _ => strict_mountIdAt.bind fun _ =>
          strict_require.bind fun _ => strict_pure

/-- **No call of a scan is one it can do without.**  By induction on the depth that is left; a call
that fails anywhere below makes the whole scan fail. -/
theorem strict_scanDirectory (levels : ℕ) (directory : Node) (expected : Stat) (totals : Totals) :
    Strict world (scanDirectory mount levels directory expected totals) := by
  induction levels generalizing directory expected totals with
  | zero => exact strict_requireLimits.bind fun _ => strict_throw
  | succ levels ih =>
    have hround : ∀ totals name, Strict world (scanEntry (scanDirectory mount levels) directory
        expected mount (maxScanDepth - levels) totals name) := fun _ _ => strict_scanEntry ih
    exact strict_requireLimits.bind fun _ => strict_mountId.bind fun _ =>
      strict_require.bind fun _ => strict_fstat.bind fun _ => strict_require.bind fun _ =>
        strict_orMissing.bind fun _ => strict_readNames.bind fun names =>
          (Strict.foldlM hround names _).bind fun _ => strict_fstat.bind fun _ =>
            strict_require.bind fun _ => strict_mountId.bind fun _ =>
              strict_require.bind fun _ => strict_pure

/-- The scan of the root is that of a directory, behind a look at it. -/
theorem strict_scanRoot {root : Node} : Strict world (scanRoot root mount) :=
  strict_fstat.bind fun _ => strict_require.bind fun _ => strict_scanDirectory _ _ _ _

end Strict

/-- What the scan adds for a node: the blocks of a directory, the size and the blocks of a file.
There is no result where a sum does not fit. -/
def charge (stat : Stat) (totals : Totals) : Option Totals :=
  if stat.fileType = sIfdir then addAllocated stat totals
  else (tryFrom stat.size).bind fun size => (addLogical size totals).bind (addAllocated stat)

/-- What the scan asks of the values of a node: no block count is negative, and no size of a file
is.  `i64` values come from the kernel, and the scan converts them with `try_from`. -/
def Accepts (stat : Stat) : Prop :=
  (stat.fileType ≠ sIfdir → 0 ≤ stat.size.toInt) ∧ 0 ≤ stat.blocks.toInt

/-- A value converts where it is not negative. -/
theorem tryFrom_eq_some {value : Int64} {n : ℕ} :
    tryFrom value = some n ↔ 0 ≤ value.toInt ∧ n = value.toInt.toNat := by
  unfold tryFrom
  split
  · rename_i h
    exact ⟨fun hsome => ⟨h, (Option.some.inj hsome).symm⟩, fun hn => hn.2 ▸ rfl⟩
  · rename_i h
    exact iff_of_false (fun hnone => by cases hnone) fun hn => h hn.1

/-- A block count converts to bytes where it is not negative and the bytes fit. -/
theorem blockBytes_eq_some {stat : Stat} {bytes : ℕ} :
    blockBytes stat = some bytes ↔
      0 ≤ stat.blocks.toInt ∧ bytes = heldBytes stat ∧ bytes ≤ u64Max := by
  unfold blockBytes
  rw [Option.bind_eq_some_iff]
  constructor
  · rintro ⟨blocks, hblocks, hbytes⟩
    obtain ⟨hsign, rfl⟩ := tryFrom_eq_some.mp hblocks
    split at hbytes
    · rename_i hle
      obtain rfl := Option.some.inj hbytes
      refine ⟨hsign, ?_, hle⟩
      unfold heldBytes
      omega
    · cases hbytes
  · rintro ⟨hsign, rfl, hle⟩
    refine ⟨_, tryFrom_eq_some.mpr ⟨hsign, rfl⟩, ?_⟩
    have hbytes : heldBytes stat = stat.blocks.toInt.toNat * 512 := by
      unfold heldBytes
      omega
    rw [hbytes] at hle ⊢
    exact if_pos hle

/-- `charge` is a charge in the sense of the sums: where it has a result, it has added the size and
the blocks of the node exactly. -/
theorem charges : Charges charge Accepts := by
  intro price stat totals result hprice haccounts hfits
  refine charge_iff (fun totals result haccounts hle => ?_) (fun bytes => tryFrom_eq_some)
    haccounts hfits
  unfold addAllocated
  rw [Option.bind_eq_some_iff]
  constructor
  · rintro ⟨bytes, hbytes, hadd⟩
    obtain ⟨hsign, rfl, -⟩ := blockBytes_eq_some.mp hbytes
    exact ⟨hsign, (addInode_eq_some hle).mp hadd⟩
  · rintro ⟨hsign, rfl, hpaid⟩
    have hbytes : heldBytes stat ≤ u64Max := heldBytes_le hprice haccounts hle hpaid
    exact ⟨_, blockBytes_eq_some.mpr ⟨hsign, rfl, hbytes⟩,
      (addInode_eq_some hle).mpr ⟨rfl, hpaid⟩⟩

/-! ### The scan is a walk

Without failures the scan is a function of the tree, and this function is a walk.  So it
returns exactly where the conditions of a walk hold, with the sums of the tree. -/

/-- A node that has not changed is the node it was. -/
theorem sameIdentity_self (stat : Stat) : sameIdentity stat stat = true := by
  simp [sameIdentity]

/-- The scan of a directory, where no call fails: a function of the tree. -/
def scan (mount : UInt64) (levels : ℕ) (directory : Node) (totals : Totals) :
    Except Unit Totals :=
  evaluate answer (scanDirectory mount levels directory directory.stat totals)

/-- One round of it: what one name of the directory adds. -/
def round (mount : UInt64) (levels : ℕ) (directory : Node) (totals : Totals) (name : FileName) :
    Except Unit Totals :=
  evaluate answer (scanEntry (scanDirectory mount levels) directory directory.stat mount
    (maxScanDepth - levels) totals name)

/-- What a node adds: a directory what its own scan adds, a file its charge, anything else nothing,
as there the scan fails. -/
theorem scanNode_ok {levels : ℕ} {directory node : Node} {name : FileName}
    {totals result : Totals} (hfind : directory.children.find name = some node) :
    evaluate answer (scanNode (scanDirectory mount levels) directory name node.stat totals) =
        .ok result ↔
      node.IsDirectory ∧ scan mount levels node totals = .ok result ∨
        node.IsFile ∧ charge node.stat totals = some result := by
  unfold scanNode
  split
  · rename_i hdirectory
    have hnot : ¬node.IsFile := fun hfile => hfile.not_isDirectory hdirectory
    rw [evaluate_bind, evaluate_openDirectory hfind hdirectory]
    simp only [hnot, false_and, or_false]
    exact (and_iff_right hdirectory).symm
  · rename_i hdirectory
    have hnot : ¬node.IsDirectory := hdirectory
    simp only [hnot, false_and, false_or]
    split
    · rename_i hfile
      rw [evaluate_orMissing, charge, if_neg hdirectory]
      exact (and_iff_right hfile).symm
    · rename_i hother
      exact iff_of_false (fun hok => by cases hok) fun h => hother h.1

/-- A round succeeds where the node is on the device and on the mount of the directory, the entries
stay below their limit, and the node itself is accepted. -/
theorem round_ok {levels : ℕ} {directory node : Node} {name : FileName} {totals result : Totals}
    (hfind : directory.children.find name = some node) :
    round mount levels directory totals name = .ok result ↔
      node.stat.device = directory.stat.device ∧ node.mount = mount ∧
        ∃ counted, countEntry totals = some counted ∧ counted.entries ≤ maxScanEntries ∧
          (node.IsDirectory ∧ scan mount levels node counted = .ok result ∨
            node.IsFile ∧ charge node.stat counted = some result) := by
  have hstat := evaluate_statAt (f := fun _ => ()) hfind
  have hmount := evaluate_mountIdAt hfind
  unfold round scanEntry
  constructor
  · intro h
    obtain ⟨counted, hcount, h⟩ := evaluate_bind_ok.mp h
    obtain ⟨_, hlimits, h⟩ := evaluate_bind_ok.mp h
    obtain ⟨before, hbefore, h⟩ := evaluate_bind_ok.mp h
    obtain rfl := Except.ok.inj (hstat.symm.trans hbefore)
    obtain ⟨_, hdevice, h⟩ := evaluate_bind_ok.mp h
    obtain ⟨observed, hobserved, h⟩ := evaluate_bind_ok.mp h
    obtain rfl := Except.ok.inj (hmount.symm.trans hobserved)
    obtain ⟨_, hsame, h⟩ := evaluate_bind_ok.mp h
    obtain ⟨after, hnode, h⟩ := evaluate_bind_ok.mp h
    obtain ⟨_, _, h⟩ := evaluate_bind_ok.mp h
    obtain ⟨_, _, h⟩ := evaluate_bind_ok.mp h
    obtain ⟨_, _, h⟩ := evaluate_bind_ok.mp h
    obtain ⟨_, _, h⟩ := evaluate_bind_ok.mp h
    obtain rfl := Except.ok.inj h
    exact ⟨evaluate_require.mp hdevice, evaluate_require.mp hsame, counted,
      evaluate_orMissing.mp hcount, (evaluate_requireLimits.mp hlimits).2,
      (scanNode_ok hfind).mp hnode⟩
  · rintro ⟨hdevice, rfl, counted, hcount, hentries, hnode⟩
    refine evaluate_bind_ok.mpr ⟨counted, evaluate_orMissing.mpr hcount, ?_⟩
    refine evaluate_bind_ok.mpr ⟨(), evaluate_requireLimits.mpr ⟨Nat.sub_le _ _, hentries⟩, ?_⟩
    refine evaluate_bind_ok.mpr ⟨node.stat, hstat, ?_⟩
    refine evaluate_bind_ok.mpr ⟨(), evaluate_require.mpr hdevice, ?_⟩
    refine evaluate_bind_ok.mpr ⟨node.mount, hmount, ?_⟩
    refine evaluate_bind_ok.mpr ⟨(), evaluate_require.mpr rfl, ?_⟩
    refine evaluate_bind_ok.mpr ⟨result, (scanNode_ok hfind).mpr hnode, ?_⟩
    refine evaluate_bind_ok.mpr ⟨node.stat, hstat, ?_⟩
    refine evaluate_bind_ok.mpr ⟨(), evaluate_require.mpr (sameIdentity_self _), ?_⟩
    refine evaluate_bind_ok.mpr ⟨node.mount, hmount, ?_⟩
    exact evaluate_bind_ok.mpr ⟨(), evaluate_require.mpr rfl, rfl⟩

/-- A scan succeeds where the directory is one, on the mount, and every round over its names
succeeds in turn. -/
theorem scan_ok {levels : ℕ} {directory : Node} {totals result : Totals} :
    scan mount (levels + 1) directory totals = .ok result ↔
      totals.entries ≤ maxScanEntries ∧ directory.mount = mount ∧ directory.IsDirectory ∧
        ∃ charged, charge directory.stat totals = some charged ∧
          directory.children.names.foldlM (round mount levels directory) charged =
            .ok result := by
  have hmount : evaluate answer (mountId directory) = .ok directory.mount := evaluate_mountId
  unfold scan scanDirectory
  constructor
  · intro h
    obtain ⟨_, hlimits, h⟩ := evaluate_bind_ok.mp h
    obtain ⟨observed, hobserved, h⟩ := evaluate_bind_ok.mp h
    obtain rfl := Except.ok.inj (hmount.symm.trans hobserved)
    obtain ⟨_, hsame, h⟩ := evaluate_bind_ok.mp h
    obtain ⟨before, hbefore, h⟩ := evaluate_bind_ok.mp h
    obtain rfl := Except.ok.inj (evaluate_fstat.symm.trans hbefore)
    obtain ⟨_, hidentity, h⟩ := evaluate_bind_ok.mp h
    have hdirectory : directory.IsDirectory := (evaluate_require.mp hidentity).2
    obtain ⟨charged, hcharged, h⟩ := evaluate_bind_ok.mp h
    obtain ⟨names, hnames, h⟩ := evaluate_bind_ok.mp h
    obtain rfl := Except.ok.inj (evaluate_readNames.symm.trans hnames)
    obtain ⟨after, hrounds, h⟩ := evaluate_bind_ok.mp h
    obtain ⟨_, _, h⟩ := evaluate_bind_ok.mp h
    obtain ⟨_, _, h⟩ := evaluate_bind_ok.mp h
    obtain ⟨_, _, h⟩ := evaluate_bind_ok.mp h
    obtain ⟨_, _, h⟩ := evaluate_bind_ok.mp h
    obtain rfl := Except.ok.inj h
    rw [evaluate_foldlM] at hrounds
    refine ⟨(evaluate_requireLimits.mp hlimits).2, evaluate_require.mp hsame, hdirectory, charged,
      ?_, hrounds⟩
    exact (if_pos hdirectory).trans (evaluate_orMissing.mp hcharged)
  · rintro ⟨hentries, rfl, hdirectory, charged, hcharged, hrounds⟩
    have hcharged' : addAllocated directory.stat totals = some charged :=
      (if_pos hdirectory).symm.trans hcharged
    refine evaluate_bind_ok.mpr ⟨(), evaluate_requireLimits.mpr ⟨Nat.sub_le _ _, hentries⟩, ?_⟩
    refine evaluate_bind_ok.mpr ⟨directory.mount, hmount, ?_⟩
    refine evaluate_bind_ok.mpr ⟨(), evaluate_require.mpr rfl, ?_⟩
    refine evaluate_bind_ok.mpr ⟨directory.stat, evaluate_fstat, ?_⟩
    refine evaluate_bind_ok.mpr
      ⟨(), evaluate_require.mpr ⟨sameIdentity_self _, hdirectory⟩, ?_⟩
    refine evaluate_bind_ok.mpr ⟨charged, evaluate_orMissing.mpr hcharged', ?_⟩
    refine evaluate_bind_ok.mpr ⟨_, evaluate_readNames, ?_⟩
    refine evaluate_bind_ok.mpr ⟨result, (evaluate_foldlM _ _).trans hrounds, ?_⟩
    refine evaluate_bind_ok.mpr ⟨directory.stat, evaluate_fstat, ?_⟩
    refine evaluate_bind_ok.mpr ⟨(), evaluate_require.mpr (sameIdentity_self _), ?_⟩
    refine evaluate_bind_ok.mpr ⟨directory.mount, hmount, ?_⟩
    exact evaluate_bind_ok.mpr ⟨(), evaluate_require.mpr rfl, rfl⟩

/-- The scan is a walk of the tree: `Sums` then gives the sums of what it has visited. -/
theorem walks : Walks charge (fun node => node.mount = mount) (fun node => node.mount = mount)
    (scan mount) (round mount) where
  exhausted := by
    intro directory totals result h
    obtain ⟨_, hlimits, _⟩ := evaluate_bind_ok.mp h
    have hdepth : maxScanDepth + 1 ≤ maxScanDepth := (evaluate_requireLimits.mp hlimits).1
    omega
  directory := scan_ok
  entry := round_ok

/-- The scan of the root is the scan of a directory, from the depth 0 on. -/
theorem scanRoot_ok {root : Node} {result : Totals} :
    evaluate answer (scanRoot root mount) = .ok result ↔
      root.IsDirectory ∧ scan mount (maxScanDepth + 1) root .start = .ok result := by
  unfold scanRoot
  constructor
  · intro h
    obtain ⟨stat, hstat, h⟩ := evaluate_bind_ok.mp h
    obtain rfl := Except.ok.inj (evaluate_fstat.symm.trans hstat)
    obtain ⟨_, hdirectory, h⟩ := evaluate_bind_ok.mp h
    exact ⟨evaluate_require.mp hdirectory, h⟩
  · rintro ⟨hdirectory, h⟩
    refine evaluate_bind_ok.mpr ⟨root.stat, evaluate_fstat, ?_⟩
    exact evaluate_bind_ok.mpr ⟨(), evaluate_require.mpr hdirectory, h⟩

/-- **On Linux a measurement is exact, or `Unknown`.**  Every run on a tree that does not change
ends with the sum of the sizes of its files and that of the blocks of its inodes, all of them on
the mount, or says that it does not know. -/
theorem exact_measureRoot (tree : StillTree) :
    Exact (measureRoot tree.root mount) tree.root fun node => node.mount = mount := by
  refine exact_of_scan strict_scanRoot fun result hresult => ?_
  obtain ⟨hdirectory, hscan⟩ := scanRoot_ok.mp hresult
  obtain ⟨-, hmount, hplain, hheight, haccepts, rfl, hfits⟩ :=
    (walks.scan_iff charges tree).mp hscan
  have hwalkable : Walkable tree.root := walkable_of_plain hdirectory hplain hheight hfits
  have hnonnegative : tree.root.Nonnegative :=
    ⟨fun node hnode hfile => (haccepts node hnode).1 hfile.not_isDirectory,
      fun node hnode => (haccepts node hnode).2⟩
  refine ⟨tree.measured hwalkable hnonnegative hfits, ?_⟩
  exact List.forall_mem_cons.mpr ⟨hmount, fun node hnode => (hplain node hnode).2.1⟩

end OnLinux
end Space
end ThinWorkspace
