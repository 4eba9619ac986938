/-
# A manifest identifies its tree, on both platforms

Source: `crates/thinws-adapter-macos/src/materializer.rs`, `snapshot_tree` and
`TreeManifest`; `crates/thinws-adapter-linux/src/tree.rs`.

The macOS scan is taken apart as the Linux one is: `Reads` is the tree its calls show,
`ReadsTree.sorted` says that it is sorted however the kernel listed it, and
`snapshotTree_reads` that a scan that succeeds has read one and keeps its manifest.  The
calls and the checks between them are those of this platform.

What a manifest tells of its tree is not proved again: `TreeManifest.format` says how this
adapter writes its manifests, and `ManifestFormat.Scanned.identifies` serves both platforms.
`manifests_identify_trees` is the result for either, and the sample behind it scans one tree
that was listed in two orders.
-/

import ThinWorkspace.Apfs.Tree
import ThinWorkspace.Btrfs.Manifest

namespace ThinWorkspace
namespace Apfs

open ThinWorkspace.Core Lib
open Program
open Btrfs (Fd DirEntry sortedNames saturate saturatingAdd EntryFields ManifestFormat fieldsOf
  factTag manifestBytes nameLe linearLe_nameLe pairwise_sortedNames textsOf TellsApart FitsTime
  FitsI64 InMemory letterA letterB letterC nestedTree nestedListing sortedNames_nestedListing
  sortedNames_letterC distinct_nestedTree sumDigest tellsApart_nestedTree)

/-- One call with its result. -/
abbrev ScanExchange := Exchange ScanCall ScanCall.Result

/-! ### The tree a scan reads

Which tree a run of a scan has seen is read off its calls: `Reads` says it of the entries of
a held directory, without mentioning the manifest.  The calls of a complete scan show one
tree, and its directories are sorted, since every listing is read in the order of the names.
-/

/-- The calls show the named entries of a held directory. -/
inductive Reads (rootDevice : UInt64) : Fd → List FileName → List ScanExchange → Forest → Prop
  | nil {directory : Fd} : Reads rootDevice directory [] [] .nil
  | directory {directory child : Fd} {name : FileName} {names : List FileName}
      {before : RawNodeMetadata} {listed : List DirEntry} {t t' : List ScanExchange}
      {children rest : Forest} (hkind : before.kind = .directory)
      (hchildren : Reads rootDevice child (sortedNames listed) t children)
      (hrest : Reads rootDevice directory names t' rest) :
      Reads rootDevice directory (name :: names)
        (⟨.nodeMetadataAt directory name, .ok before⟩ ::
          ⟨.openDirectoryAt directory name, .ok child⟩ :: ⟨.nodeMetadata child, .ok before⟩ ::
          ⟨.readDirectory child, .ok listed⟩ :: (t ++ t'))
        (.directory name before.mode before.mtime children rest)
  | file {directory file : Fd} {name : FileName} {names : List FileName}
      {before : RawNodeMetadata} {content : List UInt8} {t' : List ScanExchange} {rest : Forest}
      (hkind : before.kind = .regularFile) (hrest : Reads rootDevice directory names t' rest) :
      Reads rootDevice directory (name :: names)
        (⟨.nodeMetadataAt directory name, .ok before⟩ ::
          ⟨.openFileReadAt directory name, .ok file⟩ :: ⟨.nodeMetadata file, .ok before⟩ ::
          ⟨.readAll file, .ok content⟩ :: ⟨.nodeMetadata file, .ok before⟩ :: t')
        (.file name before.mode before.mtime content rest)
  | symlink {directory : Fd} {name : FileName} {names : List FileName} {before : RawNodeMetadata}
      {text : List UInt8} {t' : List ScanExchange} {rest : Forest}
      (hkind : before.kind = .symbolicLink) (hrest : Reads rootDevice directory names t' rest) :
      Reads rootDevice directory (name :: names)
        (⟨.nodeMetadataAt directory name, .ok before⟩ ::
          ⟨.readLinkAt directory name, .ok text⟩ ::
          ⟨.nodeMetadataAt directory name, .ok before⟩ :: t')
        (.symlink name text rest)

/-- The calls show the tree below a held root. -/
inductive ReadsTree (root : Fd) (t : List ScanExchange) (tree : Tree) : Prop
  | intro {before : RawNodeMetadata} {listed : List DirEntry} {t' : List ScanExchange}
      (hkind : before.kind = .directory)
      (hroot : tree.mode = before.mode ∧ tree.mtime = before.mtime)
      (hentries : Reads before.device root (sortedNames listed) t' tree.entries)
      (hcalls : t = ⟨.nodeMetadata root, .ok before⟩ :: ⟨.readDirectory root, .ok listed⟩ ::
        (t' ++ [⟨.nodeMetadata root, .ok before⟩]))

variable {rootDevice : UInt64} {directory : Fd} {names : List FileName}
  {t t' s s' : List ScanExchange} {forest forest' : Forest}

/-- Calls that begin alike show the same entries.  The induction is on the reading; the first calls
of an entry differ with its kind, so the two readings have the same shape and the answers agree one
by one. -/
theorem Reads.delimited (h : Reads rootDevice directory names t forest)
    (h' : Reads rootDevice directory names t' forest') (heq : t ++ s = t' ++ s') :
    forest = forest' ∧ s = s' := by
  induction h generalizing t' forest' s s' with
  | nil =>
    cases h'
    exact ⟨rfl, heq⟩
  | directory hkind hchildren hrest ihc ihr =>
    cases h' with
    | directory hkind' hchildren' hrest' =>
      simp only [List.cons_append, List.append_assoc, List.cons.injEq, Exchange.mk.injEq,
        true_and, heq_eq_eq, Except.ok.injEq] at heq
      obtain ⟨rfl, rfl, -, ⟨-, hlisted⟩, heq⟩ := heq
      subst hlisted
      obtain ⟨rfl, heq⟩ := ihc hchildren' heq
      obtain ⟨rfl, heq⟩ := ihr hrest' heq
      exact ⟨rfl, heq⟩
    | file => simp at heq
    | symlink => simp at heq
  | file hkind hrest ihr =>
    cases h' with
    | directory => simp at heq
    | file hkind' hrest' =>
      simp only [List.cons_append, List.cons.injEq, Exchange.mk.injEq, true_and, heq_eq_eq,
        Except.ok.injEq] at heq
      obtain ⟨rfl, rfl, -, ⟨-, hcontent⟩, -, heq⟩ := heq
      subst hcontent
      obtain ⟨rfl, heq⟩ := ihr hrest' heq
      exact ⟨rfl, heq⟩
    | symlink => simp at heq
  | symlink hkind hrest ihr =>
    cases h' with
    | directory => simp at heq
    | file => simp at heq
    | symlink hkind' hrest' =>
      simp only [List.cons_append, List.cons.injEq, Exchange.mk.injEq, true_and, heq_eq_eq,
        Except.ok.injEq] at heq
      obtain ⟨rfl, htext, -, heq⟩ := heq
      subst htext
      obtain ⟨rfl, heq⟩ := ihr hrest' heq
      exact ⟨rfl, heq⟩

/-- The calls of a scan show one tree. -/
theorem ReadsTree.unique {root : Fd} {tree tree' : Tree} (h : ReadsTree root t tree)
    (h' : ReadsTree root t tree') : tree = tree' := by
  obtain ⟨hkind, ⟨hmode, hmtime⟩, hentries, hcalls⟩ := h
  obtain ⟨hkind', ⟨hmode', hmtime'⟩, hentries', hcalls'⟩ := h'
  rw [hcalls] at hcalls'
  simp only [List.cons.injEq, Exchange.mk.injEq, true_and, heq_eq_eq, Except.ok.injEq] at hcalls'
  obtain ⟨rfl, hlisted, heq⟩ := hcalls'
  subst hlisted
  obtain ⟨hsame, -⟩ := hentries.delimited hentries' heq
  cases tree
  cases tree'
  simp only at hmode hmtime hmode' hmtime' hsame
  rw [hmode, hmtime, hsame, hmode', hmtime']

/-- A relation that the names of every enumeration have, each to those after it, holds in
every directory of the tree that the calls show. -/
theorem Reads.each {R : FileName → FileName → Prop} (h : Reads rootDevice directory names t forest)
    (hnames : names.Pairwise R) (hlisted : ∀ listed, (sortedNames listed).Pairwise R) :
    forest.names = names ∧ forest.Each R := by
  induction h with
  | nil => exact ⟨rfl, trivial⟩
  | directory _ _ _ ihc ihr =>
    obtain ⟨hname, hnames⟩ := List.pairwise_cons.mp hnames
    obtain ⟨-, hchildren⟩ := ihc (hlisted _)
    obtain ⟨rfl, hrest⟩ := ihr hnames
    exact ⟨rfl, hname, hchildren, hrest⟩
  | file _ _ ihr =>
    obtain ⟨hname, hnames⟩ := List.pairwise_cons.mp hnames
    obtain ⟨rfl, hrest⟩ := ihr hnames
    exact ⟨rfl, hname, hrest⟩
  | symlink _ _ ihr =>
    obtain ⟨hname, hnames⟩ := List.pairwise_cons.mp hnames
    obtain ⟨rfl, hrest⟩ := ihr hnames
    exact ⟨rfl, hname, hrest⟩

/-- The tree that a scan reads is sorted, whatever order the kernel listed it in. -/
theorem ReadsTree.sorted {root : Fd} {tree : Tree} (h : ReadsTree root t tree) :
    tree.entries.Each fun a b => nameLe a b = true := by
  obtain ⟨-, -, hentries, -⟩ := h
  exact (hentries.each (pairwise_sortedNames _) pairwise_sortedNames).2

/-! ### What a scan keeps of it

What the manifest keeps of an entry, in the fields that both platforms share.  Behind
`TreeManifest.format` the comparison and the transcript are those of the shared layer. -/

/-- The tag under which `TreeManifest::digest` writes a kind determines it. -/
theorem kindByte_inj {a b : RawFileKind} (h : kindByte a = kindByte b) : a = b := by
  cases a <;> cases b <;> first | rfl | (revert h; decide)

/-- The fields of an entry that `TreeManifest::digest` hashes. -/
def ManifestEntry.fields (entry : ManifestEntry) : EntryFields :=
  ⟨entry.path, kindByte entry.kind, entry.mode, entry.mtime, entry.length, entry.contentDigest⟩

/-- An entry is its fields. -/
theorem fields_injective : Function.Injective ManifestEntry.fields := by
  intro a b h
  simp only [ManifestEntry.fields, EntryFields.mk.injEq] at h
  obtain ⟨hpath, hkind, hmode, hmtime, hlength, hdigest⟩ := h
  have hkinds := kindByte_inj hkind
  cases a
  cases b
  simp only at hpath hkinds hmode hmtime hlength hdigest
  rw [hpath, hkinds, hmode, hmtime, hlength, hdigest]

/-- `matches_promised` compares everything but the allocated bytes. -/
theorem matchesPromised_iff (manifest source : TreeManifest) :
    manifest.matchesPromised source = true ↔
      manifest.rootMode = source.rootMode ∧ manifest.rootMtime = source.rootMtime ∧
        manifest.entries = source.entries ∧ manifest.regularFiles = source.regularFiles ∧
        manifest.logicalBytes = source.logicalBytes := by
  simp only [TreeManifest.matchesPromised, Bool.and_eq_true, beq_iff_eq, and_assoc]

/-- The digest of a manifest is the hash of its bytes, in the shared format of the adapters. -/
theorem digest_eq (hash : List UInt8 → TreeDigest) (manifest : TreeManifest) :
    manifest.digest hash = hash (manifestBytes manifest.rootMode manifest.rootMtime
      (manifest.entries.map ManifestEntry.fields)) := by
  rw [TreeManifest.digest, manifestBytes, List.flatMap_map]
  rfl

/-- How the macOS adapter writes its manifests. -/
def TreeManifest.format : ManifestFormat TreeManifest ManifestEntry where
  rootMode := TreeManifest.rootMode
  rootMtime := TreeManifest.rootMtime
  entries := TreeManifest.entries
  regularFiles := TreeManifest.regularFiles
  logicalBytes := TreeManifest.logicalBytes
  fields := ManifestEntry.fields
  countOne count := count + 1
  matchesPromised := TreeManifest.matchesPromised
  digest := TreeManifest.digest
  fields_injective := fields_injective
  matches_iff := matchesPromised_iff
  digest_eq := digest_eq

/-! ### The runs of a scan

A run that returned is taken apart, round by round: each shows its entry and extends the
manifest by the fields of that entry.  The recursion is an induction on the frames, the loop
one on the names. -/

variable {name : FileName} {fd file : Fd} {blake3 : List UInt8 → TreeDigest}

/-- A run of a single call is one exchange. -/
theorem traces_call {c : ScanCall} {r : c.Result} :
    Traces (call c) t (.ok r) ↔ t = [⟨c, r⟩] := by
  rw [traces_perform]
  constructor
  · rintro ⟨r', rfl, hr⟩
    cases hr
    rfl
  · rintro rfl
    exact ⟨r, rfl, rfl⟩

/-- A condition that is required holds where the part returns, without a call. -/
theorem traces_require {p : Prop} [Decidable p] {failure : Failure} {u : Unit} :
    Traces (require p failure) t (.ok u) ↔ p ∧ t = [] := by
  unfold require
  by_cases hp : p
  · rw [if_pos hp, traces_pure]
    exact ⟨fun h => ⟨hp, h.1⟩, fun h => ⟨h.2, rfl⟩⟩
  · rw [if_neg hp]
    exact ⟨fun h => absurd h.2 (by simp), fun h => absurd h.1 hp⟩

/-- Metadata that are returned are the answer of one call. -/
theorem traces_nodeMetadata {operation : String} {metadata : RawNodeMetadata} :
    Traces (nodeMetadata operation fd) t (.ok metadata) ↔
      t = [⟨.nodeMetadata fd, .ok metadata⟩] := by
  unfold nodeMetadata
  rw [traces_orFail]
  exact traces_call

/-- So are the metadata of a name. -/
theorem traces_nodeMetadataAt {operation : String} {metadata : RawNodeMetadata} :
    Traces (nodeMetadataAt operation directory name) t (.ok metadata) ↔
      t = [⟨.nodeMetadataAt directory name, .ok metadata⟩] := by
  unfold nodeMetadataAt
  rw [traces_orFail]
  exact traces_call

/-- A file that was read to its end, unchanged.  The metadata is read before and after the content
and compared both times with what was expected, so all three answers are known. -/
theorem traces_digestFile {expected : RawNodeMetadata} {result : UInt64 × TreeDigest}
    (h : Traces (digestFile blake3 file expected) t (.ok result)) :
    ∃ bytes, t = [⟨.nodeMetadata file, .ok expected⟩, ⟨.readAll file, .ok bytes⟩,
        ⟨.nodeMetadata file, .ok expected⟩] ∧
      result = (saturate bytes.length, blake3 bytes) := by
  unfold digestFile at h
  obtain ⟨held, t₁, _, rfl, hheld, h₁⟩ := traces_bind_ok.mp h
  obtain ⟨_, t₂, _, rfl, hsame, h₂⟩ := traces_bind_ok.mp h₁
  obtain ⟨rfl, rfl⟩ := traces_require.mp hsame
  obtain ⟨bytes, t₃, _, rfl, hread, h₃⟩ := traces_bind_ok.mp h₂
  obtain ⟨current, t₄, _, rfl, hcurrent, h₄⟩ := traces_bind_ok.mp h₃
  obtain ⟨_, t₅, _, rfl, hend, h₅⟩ := traces_bind_ok.mp h₄
  obtain ⟨⟨rfl, -⟩, rfl⟩ := traces_require.mp hend
  obtain ⟨rfl, he⟩ := traces_pure.mp h₅
  cases he
  rw [traces_orFail, traces_call] at hread
  rw [traces_nodeMetadata] at hheld hcurrent
  exact ⟨bytes, by rw [hheld, hread, hcurrent]; rfl, rfl⟩

/-- A manifest that goes on with an entry that is no regular file. -/
theorem extends_add {snapshot : TreeSnapshot} {path : TreePath} {entry : SnapshotEntry}
    {mode : Option UInt32} {mtime : Option (ℤ × ℤ)} {length : UInt64}
    (hkind : kindByte entry.metadata.kind ≠ 2) :
    TreeManifest.format.Extends snapshot.manifest
      (snapshot.add path entry mode mtime length).manifest
      [⟨path, kindByte entry.metadata.kind, mode, mtime, length, entry.contentDigest⟩] where
  rootMode := rfl
  rootMtime := rfl
  entries := by simp [TreeManifest.format, TreeSnapshot.add, ManifestEntry.fields]
  regularFiles := by
    simp [TreeManifest.format, TreeSnapshot.add, ManifestFormat.countFiles, hkind]
  logicalBytes := by
    simp [TreeManifest.format, TreeSnapshot.add, ManifestFormat.countBytes, hkind]

/-- A manifest that goes on with a regular file, which both counters take in. -/
theorem extends_add_file {snapshot : TreeSnapshot} {path : TreePath} {entry : SnapshotEntry}
    {mode : Option UInt32} {mtime : Option (ℤ × ℤ)} {length allocated : UInt64}
    (hkind : kindByte entry.metadata.kind = 2) :
    TreeManifest.format.Extends snapshot.manifest
      (({ snapshot with manifest := snapshot.manifest.count length allocated } :
        TreeSnapshot).add path entry mode mtime length).manifest
      [⟨path, kindByte entry.metadata.kind, mode, mtime, length, entry.contentDigest⟩] where
  rootMode := rfl
  rootMtime := rfl
  entries := by
    simp [TreeManifest.format, TreeSnapshot.add, TreeManifest.count, ManifestEntry.fields]
  regularFiles := by
    simp [TreeManifest.format, TreeSnapshot.add, TreeManifest.count, ManifestFormat.countFiles,
      hkind]
  logicalBytes := by
    simp [TreeManifest.format, TreeSnapshot.add, TreeManifest.count, ManifestFormat.countBytes,
      hkind]

/-- What the scan of a directory shows and keeps. -/
def Scans (blake3 : List UInt8 → TreeDigest) (rootDevice : UInt64)
    (scan : Fd → TreePath → TreeSnapshot → Scan TreeSnapshot) : Prop :=
  ∀ ⦃directory base snapshot t snapshot'⦄, Traces (scan directory base snapshot) t (.ok snapshot') →
    ∃ listed t' forest, t = ⟨.readDirectory directory, .ok listed⟩ :: t' ∧
      Reads rootDevice directory (sortedNames listed) t' forest ∧
      TreeManifest.format.Extends snapshot.manifest snapshot'.manifest
        ((forest.facts base).map (fieldsOf blake3))

variable {descend : Fd → TreePath → TreeSnapshot → Scan TreeSnapshot} {base : TreePath}
  {snapshot snapshot' : TreeSnapshot} {rest : Forest}

/-- One round of a scan, before the rounds that follow it.  There is one case for each kind of
entry; the calls of its branch are the beginning of the reading, and the entry it adds is the one
of its fact. -/
theorem snapshotEntry_reads (hdescend : Scans blake3 rootDevice descend)
    (h : Traces (snapshotEntry blake3 descend directory base rootDevice snapshot name) t
      (.ok snapshot')) (hrest : Reads rootDevice directory names t' rest) :
    ∃ forest added, Reads rootDevice directory (name :: names) (t ++ t') forest ∧
      TreeManifest.format.Extends snapshot.manifest snapshot'.manifest added ∧
      (forest.facts base).map (fieldsOf blake3) =
        added ++ (rest.facts base).map (fieldsOf blake3) := by
  unfold snapshotEntry at h
  obtain ⟨before, t₁, _, rfl, hbefore, h₁⟩ := traces_bind_ok.mp h
  obtain ⟨_, t₂, _, rfl, hdevice, h₂⟩ := traces_bind_ok.mp h₁
  obtain ⟨-, rfl⟩ := traces_require.mp hdevice
  obtain rfl := traces_nodeMetadataAt.mp hbefore
  cases hkind : before.kind with
  | directory =>
    simp only [hkind] at h₂
    obtain ⟨child, t₃, _, rfl, hopen, h₃⟩ := traces_bind_ok.mp h₂
    obtain ⟨opened, t₄, _, rfl, hopened, h₄⟩ := traces_bind_ok.mp h₃
    obtain ⟨_, t₅, _, rfl, hsame, h₅⟩ := traces_bind_ok.mp h₄
    obtain ⟨rfl, rfl⟩ := traces_require.mp hsame
    obtain ⟨inner, t₆, _, rfl, hinner, h₆⟩ := traces_bind_ok.mp h₅
    obtain ⟨rfl, he⟩ := traces_pure.mp h₆
    cases he
    rw [traces_orFail, traces_call] at hopen
    subst hopen
    obtain rfl := traces_nodeMetadata.mp hopened
    obtain ⟨listed, tc, children, rfl, hchildren, hextends⟩ := hdescend hinner
    have hreads : Reads _ directory (name :: names) _ (.directory name _ _ children rest) :=
      .directory hkind hchildren hrest
    refine ⟨_, _, by simpa using hreads,
      hextends.trans (extends_add (by simp [hkind, kindByte])), ?_⟩
    simp [Forest.facts, fieldsOf, factTag, kindByte, hkind]
  | regularFile =>
    simp only [hkind] at h₂
    obtain ⟨file, t₃, _, rfl, hopen, h₃⟩ := traces_bind_ok.mp h₂
    obtain ⟨⟨length, digest⟩, t₄, _, rfl, hdigest, h₄⟩ := traces_bind_ok.mp h₃
    obtain ⟨rfl, he⟩ := traces_pure.mp h₄
    cases he
    rw [traces_orFail, traces_call] at hopen
    subst hopen
    obtain ⟨content, rfl, hresult⟩ := traces_digestFile hdigest
    cases hresult
    have hreads : Reads rootDevice directory (name :: names)
        (_ :: ⟨.openFileReadAt _ _, .ok file⟩ :: _)
        (.file name before.mode before.mtime content rest) := .file hkind hrest
    refine ⟨_, _, by simpa using hreads, extends_add_file (by simp [hkind, kindByte]), ?_⟩
    simp [Forest.facts, fieldsOf, factTag, kindByte, hkind]
  | symbolicLink =>
    simp only [hkind] at h₂
    obtain ⟨text, t₃, _, rfl, hread, h₃⟩ := traces_bind_ok.mp h₂
    obtain ⟨after, t₄, _, rfl, hafter, h₄⟩ := traces_bind_ok.mp h₃
    obtain ⟨_, t₅, _, rfl, hsame, h₅⟩ := traces_bind_ok.mp h₄
    obtain ⟨rfl, rfl⟩ := traces_require.mp hsame
    obtain ⟨rfl, he⟩ := traces_pure.mp h₅
    cases he
    rw [traces_orFail, traces_call] at hread
    subst hread
    obtain rfl := traces_nodeMetadataAt.mp hafter
    have hreads : Reads rootDevice directory (name :: names) _ (.symlink name text rest) :=
      .symlink hkind hrest
    refine ⟨_, _, by simpa using hreads, extends_add (by simp [hkind, kindByte]), ?_⟩
    simp [Forest.facts, fieldsOf, factTag, kindByte, hkind]
  | fifo | socket | characterDevice | blockDevice | unknown =>
    simp only [hkind] at h₂
    cases h₂.2

/-- The rounds of a scan, from the first name to the last.  The induction is on the names, and each
round is put before those that follow it. -/
theorem foldlM_reads (hdescend : Scans blake3 rootDevice descend)
    (h : Traces (names.foldlM (snapshotEntry blake3 descend directory base rootDevice) snapshot) t
      (.ok snapshot')) :
    ∃ forest, Reads rootDevice directory names t forest ∧
      TreeManifest.format.Extends snapshot.manifest snapshot'.manifest
        ((forest.facts base).map (fieldsOf blake3)) := by
  induction names generalizing snapshot t with
  | nil =>
    obtain ⟨rfl, he⟩ := traces_pure.mp h
    cases he
    exact ⟨.nil, .nil, .refl _⟩
  | cons name names ih =>
    rw [List.foldlM_cons] at h
    obtain ⟨next, t₁, t₂, rfl, hentry, hnames⟩ := traces_bind_ok.mp h
    obtain ⟨rest, hrest, hextends⟩ := ih hnames
    obtain ⟨forest, added, hreads, hadded, hfacts⟩ := snapshotEntry_reads hdescend hentry hrest
    refine ⟨forest, hreads, ?_⟩
    rw [hfacts]
    exact hadded.trans hextends

/-- The scan of a directory, however deep it goes. -/
theorem scans_snapshotDirectory (frames : ℕ) :
    Scans blake3 rootDevice (snapshotDirectory blake3 rootDevice frames) := by
  induction frames with
  | zero =>
    rintro directory base snapshot t snapshot' h
    obtain ⟨result, -⟩ := traces_perform_bind.mp h
    exact nomatch result
  | succ frames ih =>
    rintro directory base snapshot t snapshot' h
    obtain ⟨names, t₁, t₂, rfl, hnames, hfold⟩ := traces_bind_ok.mp h
    obtain ⟨listed, t₃, t₄, rfl, hlisted, hsorted⟩ := traces_bind_ok.mp hnames
    obtain ⟨rfl, he⟩ := traces_pure.mp hsorted
    cases he
    rw [traces_orFail, traces_call] at hlisted
    subst hlisted
    obtain ⟨forest, hreads, hextends⟩ := foldlM_reads ih hfold
    exact ⟨listed, t₂, forest, rfl, hreads, hextends⟩

/-- **A scan that succeeds has read one tree**, and its manifest is the one of that tree.  The
metadata of the root is read before and after what is below it and has to be the same, and the
entries come from the rounds over its names. -/
theorem snapshotTree_reads {frames : ℕ} {root : Fd}
    (h : Traces (snapshotTree blake3 frames root) t (.ok snapshot')) :
    ∃ tree, ReadsTree root t tree ∧
      TreeManifest.format.Scanned blake3 tree snapshot'.manifest := by
  unfold snapshotTree at h
  obtain ⟨before, t₁, _, rfl, hbefore, h₁⟩ := traces_bind_ok.mp h
  obtain ⟨_, t₂, _, rfl, hrequire, h₂⟩ := traces_bind_ok.mp h₁
  obtain ⟨hkind, rfl⟩ := traces_require.mp hrequire
  obtain ⟨last, t₃, _, rfl, hscan, h₃⟩ := traces_bind_ok.mp h₂
  obtain ⟨after, t₄, _, rfl, hafter, h₄⟩ := traces_bind_ok.mp h₃
  obtain ⟨_, t₅, _, rfl, hsame, h₅⟩ := traces_bind_ok.mp h₄
  obtain ⟨rfl, rfl⟩ := traces_require.mp hsame
  obtain ⟨rfl, he⟩ := traces_pure.mp h₅
  cases he
  obtain rfl := traces_nodeMetadata.mp hbefore
  obtain rfl := traces_nodeMetadata.mp hafter
  obtain ⟨listed, t', entries, rfl, hentries, hextends⟩ := scans_snapshotDirectory frames hscan
  exact ⟨⟨after.mode, after.mtime, entries⟩, .intro hkind ⟨rfl, rfl⟩ hentries (by simp),
    hextends.scanned rfl rfl rfl⟩

/-! ### What the digest and the comparison tell

The two platforms give their scans, and the shared layer gives the equivalence of manifests,
digests and trees.  Trees are compared without regard to the order of their listings. -/

/-- **A manifest digest identifies its tree.**  On either platform two scans that succeed have
each read one tree.  Equal transcripts come from equal roots and entry lists, and equal digests
make the manifests match, unless the hash collides on their transcripts.  The manifests match
just where the two trees have the same facts, in whatever order their directories were listed,
if no directory names an entry twice and the hash tells the files and link texts apart. -/
theorem manifests_identify_trees (blake3 : List UInt8 → TreeDigest) :
    (∀ frames root t (s : Btrfs.TreeSnapshot) frames' root' t' (s' : Btrfs.TreeSnapshot),
      Traces (Btrfs.snapshot blake3 frames root) t (.ok s) →
      Traces (Btrfs.snapshot blake3 frames' root') t' (.ok s') →
      Btrfs.TreeManifest.format.Fits s.manifest → Btrfs.TreeManifest.format.Fits s'.manifest →
      ∃ tree tree', Btrfs.ReadsTree root t tree ∧ Btrfs.ReadsTree root' t' tree' ∧
        Btrfs.TreeManifest.format.Identifies blake3 s.manifest s'.manifest tree tree') ∧
    ∀ frames root t (s : TreeSnapshot) frames' root' t' (s' : TreeSnapshot),
      Traces (snapshotTree blake3 frames root) t (.ok s) →
      Traces (snapshotTree blake3 frames' root') t' (.ok s') →
      TreeManifest.format.Fits s.manifest → TreeManifest.format.Fits s'.manifest →
      ∃ tree tree', ReadsTree root t tree ∧ ReadsTree root' t' tree' ∧
        TreeManifest.format.Identifies blake3 s.manifest s'.manifest tree tree' := by
  constructor
  · intro frames root t s frames' root' t' s' h h' hfits hfits'
    obtain ⟨tree, hreads, hscanned⟩ := Btrfs.snapshot_reads h
    obtain ⟨tree', hreads', hscanned'⟩ := Btrfs.snapshot_reads h'
    exact ⟨tree, tree', hreads, hreads', hscanned.identifies linearLe_nameLe hscanned' hfits
      hfits' hreads.sorted hreads'.sorted⟩
  · intro frames root t s frames' root' t' s' h h' hfits hfits'
    obtain ⟨tree, hreads, hscanned⟩ := snapshotTree_reads h
    obtain ⟨tree', hreads', hscanned'⟩ := snapshotTree_reads h'
    exact ⟨tree, tree', hreads, hreads', hscanned.identifies linearLe_nameLe hscanned' hfits
      hfits' hreads.sorted hreads'.sorted⟩

/-! ### One tree, listed in two orders

One tree of a directory, a file and a link, listed by the kernel in two orders.  The scans
return one manifest, and the trees they have read agree. -/

/-- The metadata of the sample, in the order of the inodes: the root, the directory, the file and
the link. -/
def nestedMetadata (inode : UInt64) : RawNodeMetadata :=
  if inode = 1 then ⟨1, 1, .directory, 0o755, 0, 0, 11, 0⟩
  else if inode = 2 then ⟨1, 2, .directory, 0o700, 0, 0, 12, 0⟩
  else if inode = 3 then ⟨1, 3, .regularFile, 0o644, 1, 4096, 13, 0⟩
  else ⟨1, 4, .symbolicLink, 0o777, 1, 0, 14, 0⟩

/-- The calls of a scan of the sample. -/
def nestedCalls (reversed : Bool) (byte : UInt8) : List ScanExchange :=
  [⟨.nodeMetadata 0, .ok (nestedMetadata 1)⟩,
    ⟨.readDirectory 0, .ok (nestedListing reversed)⟩,
    ⟨.nodeMetadataAt 0 letterA, .ok (nestedMetadata 2)⟩, ⟨.openDirectoryAt 0 letterA, .ok 1⟩,
    ⟨.nodeMetadata 1, .ok (nestedMetadata 2)⟩, ⟨.readDirectory 1, .ok [.named letterC]⟩,
    ⟨.nodeMetadataAt 1 letterC, .ok (nestedMetadata 3)⟩, ⟨.openFileReadAt 1 letterC, .ok 2⟩,
    ⟨.nodeMetadata 2, .ok (nestedMetadata 3)⟩, ⟨.readAll 2, .ok [byte]⟩,
    ⟨.nodeMetadata 2, .ok (nestedMetadata 3)⟩,
    ⟨.nodeMetadataAt 0 letterB, .ok (nestedMetadata 4)⟩, ⟨.readLinkAt 0 letterB, .ok [97]⟩,
    ⟨.nodeMetadataAt 0 letterB, .ok (nestedMetadata 4)⟩,
    ⟨.nodeMetadata 0, .ok (nestedMetadata 1)⟩]

/-- The snapshot they leave: the file is registered first, then its directory, then the link. -/
def nestedSnapshot (hash : List UInt8 → TreeDigest) (byte : UInt8) : TreeSnapshot :=
  let root := TreeSnapshot.ofRoot (nestedMetadata 1)
  let counted := { root with manifest := root.manifest.count 1 4096 }
  let file := counted.add [letterA, letterC] ⟨nestedMetadata 3, none, some (hash [byte])⟩
    (some 0o644) (some (13, 0)) 1
  let inner := file.add [letterA] ⟨nestedMetadata 2, none, none⟩ (some 0o700) (some (12, 0)) 0
  inner.add [letterB] ⟨nestedMetadata 4, some [97], some (hash [97])⟩ none none 1

/-- The sample calls are a run of the scan, and it returns the sample. -/
theorem traces_nestedCalls (hash : List UInt8 → TreeDigest) (reversed : Bool) (byte : UInt8) :
    Traces (snapshotTree hash 2 0) (nestedCalls reversed byte)
      (.ok (nestedSnapshot hash byte)) := by
  refine ⟨.ok (nestedMetadata 1), _, rfl, .ok (nestedListing reversed), _, rfl, ?_⟩
  change Traces ((List.foldlM (snapshotEntry hash (snapshotDirectory hash 1 1) 0 [] 1)
    (.ofRoot (nestedMetadata 1)) (sortedNames (nestedListing reversed))).bind _) _ _
  rw [sortedNames_nestedListing]
  refine ⟨.ok (nestedMetadata 2), _, rfl, .ok 1, _, rfl, .ok (nestedMetadata 2), _, rfl,
    .ok [.named letterC], _, rfl, ?_⟩
  change Traces ((((List.foldlM (snapshotEntry hash (snapshotDirectory hash 1 0) 1 [letterA] 1)
    (.ofRoot (nestedMetadata 1)) (sortedNames [.named letterC])).bind _).bind _).bind _) _ _
  rw [sortedNames_letterC]
  exact ⟨.ok (nestedMetadata 3), _, rfl, .ok 2, _, rfl, .ok (nestedMetadata 3), _, rfl,
    .ok [byte], _, rfl, .ok (nestedMetadata 3), _, rfl, .ok (nestedMetadata 4), _, rfl,
    .ok [97], _, rfl, .ok (nestedMetadata 4), _, rfl, .ok (nestedMetadata 1), _, rfl, rfl, rfl⟩

/-- Whatever the order of the listing, the scan reads the sample. -/
theorem reads_nestedCalls (reversed : Bool) (byte : UInt8) :
    ReadsTree 0 (nestedCalls reversed byte) (nestedTree byte) := by
  have hfile : Reads 1 1 [letterC] (_ :: ⟨.openFileReadAt 1 letterC, .ok 2⟩ :: _)
      (.file letterC 0o644 (13, 0) [byte] .nil) :=
    .file (show (nestedMetadata 3).kind = .regularFile from rfl) .nil
  have hlink : Reads 1 0 [letterB] _ (.symlink letterB [97] .nil) :=
    .symlink (show (nestedMetadata 4).kind = .symbolicLink from rfl) .nil
  rw [← sortedNames_letterC] at hfile
  have hentries : Reads 1 0 [letterA, letterB] _ (nestedTree byte).entries :=
    .directory (show (nestedMetadata 2).kind = .directory from rfl) hfile hlink
  rw [← sortedNames_nestedListing reversed] at hentries
  exact .intro (show (nestedMetadata 1).kind = .directory from rfl) ⟨rfl, rfl⟩ hentries rfl

/-- The manifest of the sample is within the widths of the source. -/
theorem fits_nestedSnapshot (byte : UInt8) :
    TreeManifest.format.Fits (nestedSnapshot sumDigest byte).manifest := by
  have hlinux := Btrfs.fits_nestedSnapshot byte
  refine ⟨hlinux.rootMtime, fun entry hmem => ?_⟩
  change entry ∈ [_, _, _] at hmem
  simp only [List.mem_cons, List.not_mem_nil, or_false] at hmem
  rcases hmem with rfl | rfl | rfl
  · exact hlinux.entries _ (.head _)
  · exact hlinux.entries _ (.tail _ (.head _))
  · exact hlinux.entries _ (.tail _ (.tail _ (.head _)))

/-- The two scans of the sample in different orders find trees that agree, and the manifests
match.  With another byte in the file the trees differ, and so do the digests. -/
theorem manifests_identify_trees_nested :
    (∃ tree same other, Btrfs.ReadsTree 0 (Btrfs.nestedCalls true 1) tree ∧
      Btrfs.ReadsTree 0 (Btrfs.nestedCalls false 1) same ∧
      Btrfs.ReadsTree 0 (Btrfs.nestedCalls false 2) other ∧ tree.Agrees same ∧
      ¬tree.Agrees other ∧
      (Btrfs.nestedSnapshot sumDigest 1).manifest.digest sumDigest ≠
        (Btrfs.nestedSnapshot sumDigest 2).manifest.digest sumDigest) ∧
    ∃ tree same other, ReadsTree 0 (nestedCalls true 1) tree ∧
      ReadsTree 0 (nestedCalls false 1) same ∧ ReadsTree 0 (nestedCalls false 2) other ∧
      tree.Agrees same ∧ ¬tree.Agrees other ∧
      (nestedSnapshot sumDigest 1).manifest.digest sumDigest ≠
        (nestedSnapshot sumDigest 2).manifest.digest sumDigest := by
  have hsame := tellsApart_nestedTree 1 (by decide)
  have hother := tellsApart_nestedTree 2 (by decide)
  constructor
  · obtain ⟨tree, same, hreads, hreads', hident⟩ :=
      (manifests_identify_trees sumDigest).1 _ _ _ _ _ _ _ _
        (Btrfs.traces_nestedCalls sumDigest true 1) (Btrfs.traces_nestedCalls sumDigest false 1)
        (Btrfs.fits_nestedSnapshot 1) (Btrfs.fits_nestedSnapshot 1)
    obtain ⟨tree', other, hagain, hreads'', hident'⟩ :=
      (manifests_identify_trees sumDigest).1 _ _ _ _ _ _ _ _
        (Btrfs.traces_nestedCalls sumDigest true 1) (Btrfs.traces_nestedCalls sumDigest false 2)
        (Btrfs.fits_nestedSnapshot 1) (Btrfs.fits_nestedSnapshot 2)
    obtain rfl := hagain.unique hreads
    obtain rfl := hreads.unique (Btrfs.reads_nestedCalls true 1)
    obtain rfl := hreads'.unique (Btrfs.reads_nestedCalls false 1)
    obtain rfl := hreads''.unique (Btrfs.reads_nestedCalls false 2)
    have hdiffer : Btrfs.TreeManifest.format.matchesPromised
        (Btrfs.nestedSnapshot sumDigest 1).manifest
        (Btrfs.nestedSnapshot sumDigest 2).manifest ≠ true := by decide +kernel
    refine ⟨_, _, _, hreads, hreads', hreads'', ?_, ?_, fun hdigest => hdiffer ?_⟩
    · exact (hident.trees (distinct_nestedTree 1) (distinct_nestedTree 1) hsame).mp
        (by decide +kernel)
    · rw [← hident'.trees (distinct_nestedTree 1) (distinct_nestedTree 2) hother]
      exact hdiffer
    · refine hident'.digests ?_ hdigest
      unfold TellsApart
      decide +kernel
  · obtain ⟨tree, same, hreads, hreads', hident⟩ :=
      (manifests_identify_trees sumDigest).2 _ _ _ _ _ _ _ _
        (traces_nestedCalls sumDigest true 1) (traces_nestedCalls sumDigest false 1)
        (fits_nestedSnapshot 1) (fits_nestedSnapshot 1)
    obtain ⟨tree', other, hagain, hreads'', hident'⟩ :=
      (manifests_identify_trees sumDigest).2 _ _ _ _ _ _ _ _
        (traces_nestedCalls sumDigest true 1) (traces_nestedCalls sumDigest false 2)
        (fits_nestedSnapshot 1) (fits_nestedSnapshot 2)
    obtain rfl := hagain.unique hreads
    obtain rfl := hreads.unique (reads_nestedCalls true 1)
    obtain rfl := hreads'.unique (reads_nestedCalls false 1)
    obtain rfl := hreads''.unique (reads_nestedCalls false 2)
    have hdiffer : TreeManifest.format.matchesPromised (nestedSnapshot sumDigest 1).manifest
        (nestedSnapshot sumDigest 2).manifest ≠ true := by decide +kernel
    refine ⟨_, _, _, hreads, hreads', hreads'', ?_, ?_, fun hdigest => hdiffer ?_⟩
    · exact (hident.trees (distinct_nestedTree 1) (distinct_nestedTree 1) hsame).mp
        (by decide +kernel)
    · rw [← hident'.trees (distinct_nestedTree 1) (distinct_nestedTree 2) hother]
      exact hdiffer
    · refine hident'.digests ?_ hdigest
      unfold TellsApart
      decide +kernel

end Apfs
end ThinWorkspace
