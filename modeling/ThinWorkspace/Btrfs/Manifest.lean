/-
# A manifest identifies its tree

Source: `crates/thinws-adapter-linux/src/tree.rs`, `snapshot` and `TreeManifest`.

`Reads` says which tree the calls of a scan show: the listing of each directory, the
node before and after, the bytes of each file and the text of each link.  Every scan
that succeeds reads one tree (`snapshot_reads`, `ReadsTree.unique`), and its manifest is
that tree's list of facts, each file and link text as its length and hash.

The kernel may list a directory in any order, and the scan sorts what it lists by the bytes
of the names, so the tree it reads is sorted in every directory (`ReadsTree.sorted`).  How
manifests are written and compared is the format they share with the other platform.
-/

import ThinWorkspace.Btrfs.ManifestFormat
import ThinWorkspace.Btrfs.Quarantine

namespace ThinWorkspace
namespace Btrfs

open ThinWorkspace.Core Lib
open Program

/-! ### The tree a scan reads

Which tree a run of a scan has seen is read off its calls: `Reads` goes from name to name,
and each step is determined by the call that shows it.  The names of a directory are sorted
before they are read, so the tree is sorted too. -/

/-- The calls show the named entries of a held directory. -/
inductive Reads (rootMount : UInt64) : Fd → List FileName → List FsExchange → Forest → Prop
  | nil {directory : Fd} : Reads rootMount directory [] [] .nil
  | directory {directory child : Fd} {name : FileName} {names : List FileName} {before : Node}
      {listed : List DirEntry} {t t' : List FsExchange} {children rest : Forest}
      (hkind : before.kind = .directory)
      (hchildren : Reads rootMount child (sortedNames listed) t children)
      (hrest : Reads rootMount directory names t' rest) :
      Reads rootMount directory (name :: names)
        (⟨.statat directory name, .ok before⟩ ::
          ⟨.mountIdAt directory name, .ok (some rootMount)⟩ ::
          ⟨.openDirectory directory name, .ok child⟩ :: ⟨.fstat child, .ok before⟩ ::
          ⟨.mountId child, .ok (some rootMount)⟩ :: ⟨.readDir child, .ok listed⟩ ::
          (t ++ ⟨.fstat child, .ok before⟩ :: t'))
        (.directory name before.mode before.mtime children rest)
  | file {directory file : Fd} {name : FileName} {names : List FileName} {before : Node}
      {content : List UInt8} {t' : List FsExchange} {rest : Forest} (hkind : before.kind = .file)
      (hrest : Reads rootMount directory names t' rest) :
      Reads rootMount directory (name :: names)
        (⟨.statat directory name, .ok before⟩ ::
          ⟨.mountIdAt directory name, .ok (some rootMount)⟩ ::
          ⟨.openFile directory name, .ok file⟩ :: ⟨.fstat file, .ok before⟩ ::
          ⟨.readAll file, .ok content⟩ :: ⟨.fstat file, .ok before⟩ :: t')
        (.file name before.mode before.mtime content rest)
  | symlink {directory : Fd} {name : FileName} {names : List FileName} {before : Node}
      {text : List UInt8} {t' : List FsExchange} {rest : Forest} (hkind : before.kind = .symlink)
      (hrest : Reads rootMount directory names t' rest) :
      Reads rootMount directory (name :: names)
        (⟨.statat directory name, .ok before⟩ ::
          ⟨.mountIdAt directory name, .ok (some rootMount)⟩ ::
          ⟨.readlink directory name, .ok text⟩ :: ⟨.statat directory name, .ok before⟩ :: t')
        (.symlink name text rest)

/-- The calls show the tree below a held root. -/
inductive ReadsTree (root : Fd) (t : List FsExchange) (tree : Tree) : Prop
  | intro {rootMount : UInt64} {before : Node} {listed : List DirEntry} {t' : List FsExchange}
      (hkind : before.kind = .directory)
      (hroot : tree.mode = before.mode ∧ tree.mtime = before.mtime)
      (hentries : Reads rootMount root (sortedNames listed) t' tree.entries)
      (hcalls : t = ⟨.fstat root, .ok before⟩ :: ⟨.mountId root, .ok (some rootMount)⟩ ::
        ⟨.readDir root, .ok listed⟩ :: (t' ++ [⟨.fstat root, .ok before⟩]))

variable {rootMount : UInt64} {directory : Fd} {names : List FileName}
  {t t' s s' : List FsExchange} {forest forest' : Forest}

/-- Calls that begin alike show the same entries, by induction on the reading: each step is
determined by its call and its answer. -/
theorem Reads.delimited (h : Reads rootMount directory names t forest)
    (h' : Reads rootMount directory names t' forest') (heq : t ++ s = t' ++ s') :
    forest = forest' ∧ s = s' := by
  induction h generalizing t' forest' s s' with
  | nil =>
    cases h'
    exact ⟨rfl, heq⟩
  | directory hkind hchildren hrest ihc ihr =>
    cases h' with
    | directory hkind' hchildren' hrest' =>
      simp only [List.cons_append, List.append_assoc, List.cons.injEq, Exchange.mk.injEq,
        true_and, heq_eq_eq, Except.ok.injEq] at heq
      obtain ⟨rfl, rfl, -, -, ⟨-, hlisted⟩, heq⟩ := heq
      subst hlisted
      obtain ⟨rfl, heq⟩ := ihc hchildren' heq
      obtain ⟨rfl, heq⟩ := ihr hrest' (List.cons.inj heq).2
      exact ⟨rfl, heq⟩
    | file => simp at heq
    | symlink => simp at heq
  | file hkind hrest ihr =>
    cases h' with
    | directory => simp at heq
    | file hkind' hrest' =>
      simp only [List.cons_append, List.cons.injEq, Exchange.mk.injEq, true_and, heq_eq_eq,
        Except.ok.injEq] at heq
      obtain ⟨rfl, rfl, -, ⟨-, hcontent⟩, -, heq⟩ := heq
      subst hcontent
      obtain ⟨rfl, heq⟩ := ihr hrest' heq
      exact ⟨rfl, heq⟩
    | symlink => simp at heq
  | symlink hkind hrest ihr =>
    cases h' with
    | directory => simp at heq
    | file => simp at heq
    | symlink hkind' hrest' =>
      simp only [List.cons_append, List.cons.injEq, Exchange.mk.injEq, true_and, heq_eq_eq,
        Except.ok.injEq] at heq
      obtain ⟨rfl, htext, -, heq⟩ := heq
      subst htext
      obtain ⟨rfl, heq⟩ := ihr hrest' heq
      exact ⟨rfl, heq⟩

/-- The calls of a scan show one tree, so that one may speak of the tree that was read.  The root
is fixed by the first call, and the entries by `Reads.delimited`. -/
theorem ReadsTree.unique {root : Fd} {tree tree' : Tree} (h : ReadsTree root t tree)
    (h' : ReadsTree root t tree') : tree = tree' := by
  obtain ⟨hkind, ⟨hmode, hmtime⟩, hentries, hcalls⟩ := h
  obtain ⟨hkind', ⟨hmode', hmtime'⟩, hentries', hcalls'⟩ := h'
  rw [hcalls] at hcalls'
  simp only [List.cons.injEq, Exchange.mk.injEq, true_and, heq_eq_eq, Except.ok.injEq] at hcalls'
  obtain ⟨rfl, hmount, hlisted, heq⟩ := hcalls'
  subst hlisted
  cases hmount
  obtain ⟨hsame, -⟩ := hentries.delimited hentries' heq
  cases tree
  cases tree'
  simp only at hmode hmtime hmode' hmtime' hsame
  rw [hmode, hmtime, hsame, hmode', hmtime']

/-- The names of an enumeration are read in the order of their bytes. -/
def nameLe (a b : FileName) : Bool := bytesLe a.bytes b.bytes

/-- `bytesLe` compares bytes by their values, the first ones first.  The induction is on the first
list. -/
theorem bytesLe_eq_lex (as bs : List UInt8) :
    bytesLe as bs = Lexicographic.lex (fun a b => decide (a.toNat ≤ b.toNat)) as bs := by
  induction as generalizing bs with
  | nil => rfl
  | cons a as ih =>
    cases bs with
    | nil => rfl
    | cons b bs =>
      rw [bytesLe, Lexicographic.lex, ih]
      by_cases hab : a = b
      · simp [hab]
      · have hne : a.toNat ≠ b.toNat := fun h => hab (UInt8.toNat_inj.mp h)
        simp only [hab, beq_eq_false_iff_ne.mpr hab, if_false, Bool.false_and, Bool.or_false,
          decide_eq_decide]
        omega

/-- The order of names is a linear one, as that of their bytes is. -/
theorem linearLe_nameLe : Lexicographic.LinearLe nameLe := by
  have hbytes := Lexicographic.linearLe_byte.lex
  refine ⟨fun a b => ?_, fun a b c hab hbc => ?_, fun a b hab hba => ?_⟩
  · simpa only [nameLe, bytesLe_eq_lex] using hbytes.total a.bytes b.bytes
  · simp only [nameLe, bytesLe_eq_lex] at hab hbc ⊢
    exact hbytes.trans _ _ _ hab hbc
  · simp only [nameLe, bytesLe_eq_lex] at hab hba
    cases a
    cases b
    simpa using hbytes.antisymm _ _ hab hba

/-- The names of an enumeration are sorted, in whatever order they were listed. -/
theorem pairwise_sortedNames (listed : List DirEntry) :
    (sortedNames listed).Pairwise fun a b => nameLe a b = true :=
  linearLe_nameLe.pairwise_mergeSort _

/-- A relation that the names of every enumeration have, each to those after it, holds in every
directory of the tree that the calls show.  The induction is on the reading: the names of a
directory are those of its listing, for which the assumption is made. -/
theorem Reads.each {R : FileName → FileName → Prop} (h : Reads rootMount directory names t forest)
    (hnames : names.Pairwise R) (hlisted : ∀ fd listed,
      (⟨.readDir fd, .ok listed⟩ : FsExchange) ∈ t → (sortedNames listed).Pairwise R) :
    forest.names = names ∧ forest.Each R := by
  induction h with
  | nil => exact ⟨rfl, trivial⟩
  | @directory directory child name names before listed t t' children rest _ _ _ ihc ihr =>
    obtain ⟨hname, hnames⟩ := List.pairwise_cons.mp hnames
    have hchild := hlisted child listed (by simp)
    obtain ⟨-, hchildren⟩ := ihc hchild fun fd listed hmem => hlisted fd listed (by simp [hmem])
    obtain ⟨rfl, hrest⟩ := ihr hnames fun fd listed hmem => hlisted fd listed (by simp [hmem])
    exact ⟨rfl, hname, hchildren, hrest⟩
  | file _ _ ihr =>
    obtain ⟨hname, hnames⟩ := List.pairwise_cons.mp hnames
    obtain ⟨rfl, hrest⟩ := ihr hnames fun fd listed hmem => hlisted fd listed (by simp [hmem])
    exact ⟨rfl, hname, hrest⟩
  | symlink _ _ ihr =>
    obtain ⟨hname, hnames⟩ := List.pairwise_cons.mp hnames
    obtain ⟨rfl, hrest⟩ := ihr hnames fun fd listed hmem => hlisted fd listed (by simp [hmem])
    exact ⟨rfl, hname, hrest⟩

/-- The tree that a scan reads is sorted, whatever order the kernel listed it in. -/
theorem ReadsTree.sorted {root : Fd} {tree : Tree} (h : ReadsTree root t tree) :
    tree.entries.Each fun a b => nameLe a b = true := by
  obtain ⟨-, -, hentries, -⟩ := h
  exact (hentries.each (pairwise_sortedNames _) fun _ _ _ => pairwise_sortedNames _).2

/-! ### What a scan keeps of it

The fields of an entry that are compared and hashed.  `TreeManifest.format` instantiates the
layer that the two platforms share, and from here on its lemmas apply. -/

/-- The tag under which `TreeManifest::digest` writes a kind determines it. -/
theorem kindByte_inj {a b : NodeKind} (h : kindByte a = kindByte b) : a = b := by
  cases a <;> cases b <;> first | rfl | (revert h; decide)

/-- The fields of an entry that `TreeManifest::digest` hashes. -/
def ManifestEntry.fields (entry : ManifestEntry) : EntryFields :=
  ⟨entry.path, kindByte entry.kind, entry.mode, entry.mtime, entry.length, entry.digest⟩

/-- An entry is its fields: the record that is hashed determines it. -/
theorem fields_injective : Function.Injective ManifestEntry.fields := by
  intro a b h
  simp only [ManifestEntry.fields, EntryFields.mk.injEq] at h
  obtain ⟨hpath, hkind, hmode, hmtime, hlength, hdigest⟩ := h
  have hkinds := kindByte_inj hkind
  cases a
  cases b
  simp only at hpath hkinds hmode hmtime hlength hdigest
  rw [hpath, hkinds, hmode, hmtime, hlength, hdigest]

/-- `matches_promised` compares everything but the allocated bytes, which a clone need not share.
-/
theorem matchesPromised_iff (manifest source : TreeManifest) :
    manifest.matchesPromised source = true ↔
      manifest.rootMode = source.rootMode ∧ manifest.rootMtime = source.rootMtime ∧
        manifest.entries = source.entries ∧ manifest.regularFiles = source.regularFiles ∧
        manifest.logicalBytes = source.logicalBytes := by
  simp only [TreeManifest.matchesPromised, Bool.and_eq_true, beq_iff_eq, and_assoc]

/-- The digest of a manifest is the hash of its bytes, in the shared format of the adapters. -/
theorem digest_eq (hash : List UInt8 → TreeDigest) (manifest : TreeManifest) :
    manifest.digest hash = hash (manifestBytes manifest.rootMode manifest.rootMtime
      (manifest.entries.map ManifestEntry.fields)) := by
  rw [TreeManifest.digest, manifestBytes, List.flatMap_map]
  rfl

/-- How the Linux adapter writes its manifests: the lemmas of `ManifestFormat` then hold of them.
-/
def TreeManifest.format : ManifestFormat TreeManifest ManifestEntry where
  rootMode := TreeManifest.rootMode
  rootMtime := TreeManifest.rootMtime
  entries := TreeManifest.entries
  regularFiles := TreeManifest.regularFiles
  logicalBytes := TreeManifest.logicalBytes
  fields := ManifestEntry.fields
  countOne count := saturatingAdd count 1
  matchesPromised := TreeManifest.matchesPromised
  digest := TreeManifest.digest
  fields_injective := fields_injective
  matches_iff := matchesPromised_iff
  digest_eq := digest_eq

/-! ### The runs of a scan

A run that returned is taken apart into rounds.  `Round` names the three shapes that a round
can have, so that the runs are analysed once and both the manifest and the inventory use the
result. -/

variable {name : FileName} {fd file : Fd} {blake3 : List UInt8 → TreeDigest}

/-- A run that reads a value the kernel may not have.  A value that is missing is the failure that
the caller names, so a run that goes on has read one. -/
theorem traces_orMissing {α : Type} {a : α} {missing : TreeFailure} {f : Errno → TreeFailure}
    {y : Fs (Except Errno (Option α))} :
    Traces (y.orFail f >>= orMissing missing) t (.ok a) ↔ Traces y t (.ok (.ok (some a))) := by
  rw [traces_bind_ok]
  constructor
  · rintro ⟨observed, t₁, t₂, rfl, hread, hsome⟩
    cases observed with
    | none => cases hsome.2
    | some found =>
      obtain ⟨rfl, he⟩ := traces_pure.mp hsome
      cases he
      rw [List.append_nil]
      exact traces_orFail.mp hread
  · intro h
    exact ⟨some a, t, [], (List.append_nil t).symm, traces_orFail.mpr h, traces_pure.mpr ⟨rfl, rfl⟩⟩

/-- A mount number that is returned is the answer of one call. -/
theorem traces_mountId {mount : UInt64} :
    Traces (mountId fd) t (.ok mount) ↔ t = [⟨.mountId fd, .ok (some mount)⟩] :=
  traces_orMissing.trans traces_call

/-- So is the mount number of a name one exchange, with a number in its answer. -/
theorem traces_mountIdAt {mount : UInt64} :
    Traces (mountIdAt directory name) t (.ok mount) ↔
      t = [⟨.mountIdAt directory name, .ok (some mount)⟩] :=
  traces_orMissing.trans traces_call

/-- So is a file that is opened one exchange, with a handle in its answer. -/
theorem traces_openFile :
    Traces (openFile directory name) t (.ok file) ↔ t = [⟨.openFile directory name, .ok file⟩] := by
  unfold openFile
  rw [traces_orFail]
  exact traces_call

/-- A file that was read to its end, unchanged.  The metadata is read before and after the content
and compared both times with what was expected, so all three answers are known. -/
theorem traces_digestFile {expected : Node} {result : UInt64 × TreeDigest}
    (h : Traces (digestFile blake3 file expected) t (.ok result)) :
    ∃ bytes, t = [⟨.fstat file, .ok expected⟩, ⟨.readAll file, .ok bytes⟩,
        ⟨.fstat file, .ok expected⟩] ∧ result = (saturate bytes.length, blake3 bytes) := by
  unfold digestFile at h
  obtain ⟨held, t₁, _, rfl, hheld, h₁⟩ := traces_bind_ok.mp h
  obtain ⟨_, t₂, _, rfl, hsame, h₂⟩ := traces_bind_ok.mp h₁
  obtain ⟨rfl, rfl⟩ := traces_require.mp hsame
  obtain ⟨bytes, t₃, _, rfl, hread, h₃⟩ := traces_bind_ok.mp h₂
  obtain ⟨current, t₄, _, rfl, hcurrent, h₄⟩ := traces_bind_ok.mp h₃
  obtain ⟨_, t₅, _, rfl, hend, h₅⟩ := traces_bind_ok.mp h₄
  obtain ⟨⟨rfl, -⟩, rfl⟩ := traces_require.mp hend
  obtain ⟨rfl, he⟩ := traces_pure.mp h₅
  cases he
  rw [traces_orFail, traces_call] at hread
  rw [traces_node] at hheld hcurrent
  exact ⟨bytes, by rw [hheld, hread, hcurrent]; rfl, rfl⟩

/-- A manifest that goes on with an entry that is no regular file. -/
theorem extends_add {snapshot : TreeSnapshot} {path : TreePath} {entry : SnapshotEntry}
    {mode : Option UInt32} {mtime : Option (ℤ × ℤ)} {length : UInt64}
    (hkind : kindByte entry.node.kind ≠ 2) :
    TreeManifest.format.Extends snapshot.manifest
      (snapshot.add path entry mode mtime length).manifest
      [⟨path, kindByte entry.node.kind, mode, mtime, length, entry.contentDigest⟩] where
  rootMode := rfl
  rootMtime := rfl
  entries := by simp [TreeManifest.format, TreeSnapshot.add, ManifestEntry.fields]
  regularFiles := by
    simp [TreeManifest.format, TreeSnapshot.add, ManifestFormat.countFiles, hkind]
  logicalBytes := by
    simp [TreeManifest.format, TreeSnapshot.add, ManifestFormat.countBytes, hkind]

/-- A manifest that goes on with a regular file, which both counters take in.  The counters go up
by the file that the new entry adds, and everything else is the same. -/
theorem extends_add_file {snapshot : TreeSnapshot} {path : TreePath} {entry : SnapshotEntry}
    {mode : Option UInt32} {mtime : Option (ℤ × ℤ)} {length blocks : UInt64}
    (hkind : kindByte entry.node.kind = 2) :
    TreeManifest.format.Extends snapshot.manifest
      (({ snapshot with manifest := snapshot.manifest.count length blocks } : TreeSnapshot).add
        path entry mode mtime length).manifest
      [⟨path, kindByte entry.node.kind, mode, mtime, length, entry.contentDigest⟩] where
  rootMode := rfl
  rootMtime := rfl
  entries := by
    simp [TreeManifest.format, TreeSnapshot.add, TreeManifest.count, ManifestEntry.fields]
  regularFiles := by
    simp [TreeManifest.format, TreeSnapshot.add, TreeManifest.count, ManifestFormat.countFiles,
      hkind]
  logicalBytes := by
    simp [TreeManifest.format, TreeSnapshot.add, TreeManifest.count, ManifestFormat.countBytes,
      hkind]

/-- A round of a scan that returned: its calls, and the snapshot it leaves. -/
inductive Round (blake3 : List UInt8 → TreeDigest)
    (descend : Fd → TreePath → TreeSnapshot → Fs TreeSnapshot) (directory : Fd) (base : TreePath)
    (rootMount : UInt64) (snapshot : TreeSnapshot) (name : FileName) :
    List FsExchange → TreeSnapshot → Prop
  | directory {before : Node} {child : Fd} {t : List FsExchange} {inner : TreeSnapshot}
      (hkind : before.kind = .directory)
      (hinner : Traces (descend child (base ++ [name]) snapshot) t (.ok inner)) :
      Round blake3 descend directory base rootMount snapshot name
        (⟨.statat directory name, .ok before⟩ ::
          ⟨.mountIdAt directory name, .ok (some rootMount)⟩ ::
          ⟨.openDirectory directory name, .ok child⟩ :: ⟨.fstat child, .ok before⟩ ::
          ⟨.mountId child, .ok (some rootMount)⟩ :: (t ++ [⟨.fstat child, .ok before⟩]))
        (inner.add (base ++ [name]) ⟨before, none, none⟩ (some before.mode) (some before.mtime) 0)
  | file {before : Node} {file : Fd} {content : List UInt8} (hkind : before.kind = .file) :
      Round blake3 descend directory base rootMount snapshot name
        [⟨.statat directory name, .ok before⟩, ⟨.mountIdAt directory name, .ok (some rootMount)⟩,
          ⟨.openFile directory name, .ok file⟩, ⟨.fstat file, .ok before⟩,
          ⟨.readAll file, .ok content⟩, ⟨.fstat file, .ok before⟩]
        (TreeSnapshot.add { snapshot with
            manifest := snapshot.manifest.count (saturate content.length) before.blocks }
          (base ++ [name]) ⟨before, none, some (blake3 content)⟩ (some before.mode)
          (some before.mtime) (saturate content.length))
  | symlink {before : Node} {text : List UInt8} (hkind : before.kind = .symlink) :
      Round blake3 descend directory base rootMount snapshot name
        [⟨.statat directory name, .ok before⟩, ⟨.mountIdAt directory name, .ok (some rootMount)⟩,
          ⟨.readlink directory name, .ok text⟩, ⟨.statat directory name, .ok before⟩]
        (snapshot.add (base ++ [name]) ⟨before, some text, some (blake3 text)⟩ none none
          (saturate text.length))

variable {descend : Fd → TreePath → TreeSnapshot → Fs TreeSnapshot} {base : TreePath}
  {snapshot snapshot' : TreeSnapshot} {rest : Forest}

/-- A round of the scan that returns is a `Round`.  There is one case for each kind of entry, and
the calls of its branch are read off one by one. -/
theorem round_of_traces
    (h : Traces (snapshotEntry blake3 descend directory base rootMount snapshot name) t
      (.ok snapshot')) :
    Round blake3 descend directory base rootMount snapshot name t snapshot' := by
  unfold snapshotEntry at h
  obtain ⟨before, t₁, _, rfl, hbefore, h₁⟩ := traces_bind_ok.mp h
  obtain ⟨mount, t₂, _, rfl, hmount, h₂⟩ := traces_bind_ok.mp h₁
  obtain ⟨_, t₃, _, rfl, hsame, h₃⟩ := traces_bind_ok.mp h₂
  obtain ⟨rfl, rfl⟩ := traces_require.mp hsame
  obtain rfl := traces_nodeAt.mp hbefore
  obtain rfl := traces_mountIdAt.mp hmount
  cases hkind : before.kind with
  | directory =>
    simp only [hkind] at h₃
    obtain ⟨child, t₄, _, rfl, hopen, h₄⟩ := traces_bind_ok.mp h₃
    obtain ⟨opened, t₅, _, rfl, hopened, h₅⟩ := traces_bind_ok.mp h₄
    obtain ⟨_, t₆, _, rfl, hsame, h₆⟩ := traces_bind_ok.mp h₅
    obtain ⟨rfl, rfl⟩ := traces_require.mp hsame
    obtain ⟨childMount, t₇, _, rfl, hchildMount, h₇⟩ := traces_bind_ok.mp h₆
    obtain ⟨_, t₈, _, rfl, hsame, h₈⟩ := traces_bind_ok.mp h₇
    obtain ⟨rfl, rfl⟩ := traces_require.mp hsame
    obtain ⟨inner, t₉, _, rfl, hinner, h₉⟩ := traces_bind_ok.mp h₈
    obtain ⟨after, t₁₀, _, rfl, hafter, h₁₀⟩ := traces_bind_ok.mp h₉
    obtain ⟨_, t₁₁, _, rfl, hsame, h₁₁⟩ := traces_bind_ok.mp h₁₀
    obtain ⟨rfl, rfl⟩ := traces_require.mp hsame
    obtain ⟨rfl, he⟩ := traces_pure.mp h₁₁
    cases he
    obtain rfl := traces_openDirectory.mp hopen
    obtain rfl := traces_node.mp hopened
    obtain rfl := traces_mountId.mp hchildMount
    obtain rfl := traces_node.mp hafter
    exact .directory hkind hinner
  | file =>
    simp only [hkind] at h₃
    obtain ⟨file, t₄, _, rfl, hopen, h₄⟩ := traces_bind_ok.mp h₃
    obtain ⟨⟨length, digest⟩, t₅, _, rfl, hdigest, h₅⟩ := traces_bind_ok.mp h₄
    obtain ⟨rfl, he⟩ := traces_pure.mp h₅
    cases he
    obtain rfl := traces_openFile.mp hopen
    obtain ⟨content, rfl, hresult⟩ := traces_digestFile hdigest
    cases hresult
    exact .file hkind
  | symlink =>
    simp only [hkind] at h₃
    obtain ⟨text, t₄, _, rfl, hread, h₄⟩ := traces_bind_ok.mp h₃
    obtain ⟨after, t₅, _, rfl, hafter, h₅⟩ := traces_bind_ok.mp h₄
    obtain ⟨_, t₆, _, rfl, hsame, h₆⟩ := traces_bind_ok.mp h₅
    obtain ⟨rfl, rfl⟩ := traces_require.mp hsame
    obtain ⟨rfl, he⟩ := traces_pure.mp h₆
    cases he
    rw [traces_orFail, traces_call] at hread
    subst hread
    obtain rfl := traces_nodeAt.mp hafter
    exact .symlink hkind
  | unsupported =>
    simp only [hkind] at h₃
    cases h₃.2

/-- What the scan of a directory shows and keeps. -/
def Scans (blake3 : List UInt8 → TreeDigest) (rootMount : UInt64)
    (scan : Fd → TreePath → TreeSnapshot → Fs TreeSnapshot) : Prop :=
  ∀ ⦃directory base snapshot t snapshot'⦄, Traces (scan directory base snapshot) t (.ok snapshot') →
    ∃ listed t' forest, t = ⟨.readDir directory, .ok listed⟩ :: t' ∧
      Reads rootMount directory (sortedNames listed) t' forest ∧
      TreeManifest.format.Extends snapshot.manifest snapshot'.manifest
        ((forest.facts base).map (fieldsOf blake3))

/-- One round of a scan, before the rounds that follow it.  A round is one constructor of the
reading: the entry it shows, what is below it, and the rounds that follow. -/
theorem Round.reads (hdescend : Scans blake3 rootMount descend)
    (h : Round blake3 descend directory base rootMount snapshot name t snapshot')
    (hrest : Reads rootMount directory names t' rest) :
    ∃ forest added, Reads rootMount directory (name :: names) (t ++ t') forest ∧
      TreeManifest.format.Extends snapshot.manifest snapshot'.manifest added ∧
      (forest.facts base).map (fieldsOf blake3) =
        added ++ (rest.facts base).map (fieldsOf blake3) := by
  cases h with
  | directory hkind hinner =>
    obtain ⟨listed, tc, children, rfl, hchildren, hextends⟩ := hdescend hinner
    have hreads : Reads _ directory (name :: names) _ (.directory name _ _ children rest) :=
      .directory hkind hchildren hrest
    refine ⟨_, _, by simpa using hreads,
      hextends.trans (extends_add (by simp [hkind, kindByte])), ?_⟩
    simp [Forest.facts, fieldsOf, factTag, kindByte, hkind]
  | @file before file content hkind =>
    have hreads : Reads rootMount directory (name :: names)
        (_ :: _ :: ⟨.openFile _ _, .ok file⟩ :: _)
        (.file name before.mode before.mtime content rest) := .file hkind hrest
    refine ⟨_, _, by simpa using hreads, extends_add_file (by simp [hkind, kindByte]), ?_⟩
    simp [Forest.facts, fieldsOf, factTag, kindByte, hkind]
  | @symlink before text hkind =>
    have hreads : Reads rootMount directory (name :: names) _ (.symlink name text rest) :=
      .symlink hkind hrest
    refine ⟨_, _, by simpa using hreads, extends_add (by simp [hkind, kindByte]), ?_⟩
    simp [Forest.facts, fieldsOf, factTag, kindByte, hkind]

/-- The rounds of a scan, from the first name to the last.  The induction is on the names, and each
round is put before those that follow it. -/
theorem foldlM_reads (hdescend : Scans blake3 rootMount descend)
    (h : Traces (names.foldlM (snapshotEntry blake3 descend directory base rootMount) snapshot) t
      (.ok snapshot')) :
    ∃ forest, Reads rootMount directory names t forest ∧
      TreeManifest.format.Extends snapshot.manifest snapshot'.manifest
        ((forest.facts base).map (fieldsOf blake3)) := by
  induction names generalizing snapshot t with
  | nil =>
    obtain ⟨rfl, he⟩ := traces_pure.mp h
    cases he
    exact ⟨.nil, .nil, .refl _⟩
  | cons name names ih =>
    rw [List.foldlM_cons] at h
    obtain ⟨next, t₁, t₂, rfl, hentry, hnames⟩ := traces_bind_ok.mp h
    obtain ⟨rest, hrest, hextends⟩ := ih hnames
    obtain ⟨forest, added, hreads, hadded, hfacts⟩ := (round_of_traces hentry).reads hdescend hrest
    refine ⟨forest, hreads, ?_⟩
    rw [hfacts]
    exact hadded.trans hextends

/-- The scan of a directory, however deep it goes. -/
theorem scans_snapshotDirectory (frames : ℕ) :
    Scans blake3 rootMount (snapshotDirectory blake3 rootMount frames) := by
  induction frames with
  | zero =>
    rintro directory base snapshot t snapshot' h
    obtain ⟨result, -⟩ := traces_perform_bind.mp h
    exact nomatch result
  | succ frames ih =>
    rintro directory base snapshot t snapshot' h
    obtain ⟨names, t₁, t₂, rfl, hnames, hfold⟩ := traces_bind_ok.mp h
    obtain ⟨listed, rfl, rfl⟩ := traces_directoryNames.mp hnames
    obtain ⟨forest, hreads, hextends⟩ := foldlM_reads ih hfold
    exact ⟨listed, t₂, forest, rfl, hreads, hextends⟩

/-- A scan that succeeds reads its root before and after what is below it.  The first and the last
call of a scan read the metadata of the root and have to agree. -/
theorem snapshot_cases {frames : ℕ} {root : Fd}
    (h : Traces (Btrfs.snapshot blake3 frames root) t (.ok snapshot')) :
    ∃ before mount t', before.kind = .directory ∧
      t = ⟨.fstat root, .ok before⟩ :: ⟨.mountId root, .ok (some mount)⟩ ::
        (t' ++ [⟨.fstat root, .ok before⟩]) ∧
      Traces (snapshotDirectory blake3 mount frames root [] (.ofRoot before)) t'
        (.ok snapshot') := by
  unfold Btrfs.snapshot at h
  obtain ⟨before, t₁, _, rfl, hbefore, h₁⟩ := traces_bind_ok.mp h
  obtain ⟨_, t₂, _, rfl, hrequire, h₂⟩ := traces_bind_ok.mp h₁
  obtain ⟨hkind, rfl⟩ := traces_require.mp hrequire
  obtain ⟨mount, t₃, _, rfl, hmount, h₃⟩ := traces_bind_ok.mp h₂
  obtain ⟨last, t₄, _, rfl, hscan, h₄⟩ := traces_bind_ok.mp h₃
  obtain ⟨after, t₅, _, rfl, hafter, h₅⟩ := traces_bind_ok.mp h₄
  obtain ⟨_, t₆, _, rfl, hsame, h₆⟩ := traces_bind_ok.mp h₅
  obtain ⟨rfl, rfl⟩ := traces_require.mp hsame
  obtain ⟨rfl, he⟩ := traces_pure.mp h₆
  cases he
  obtain rfl := traces_node.mp hbefore
  obtain rfl := traces_mountId.mp hmount
  obtain rfl := traces_node.mp hafter
  exact ⟨after, mount, t₄, hkind, by simp, hscan⟩

/-- **A scan that succeeds has read one tree**, and its manifest is the one of that tree. -/
theorem snapshot_reads {frames : ℕ} {root : Fd}
    (h : Traces (Btrfs.snapshot blake3 frames root) t (.ok snapshot')) :
    ∃ tree, ReadsTree root t tree ∧
      TreeManifest.format.Scanned blake3 tree snapshot'.manifest := by
  obtain ⟨before, mount, t', hkind, rfl, hscan⟩ := snapshot_cases h
  obtain ⟨listed, t', entries, rfl, hentries, hextends⟩ := scans_snapshotDirectory frames hscan
  exact ⟨⟨before.mode, before.mtime, entries⟩, .intro hkind ⟨rfl, rfl⟩ hentries (by simp),
    hextends.scanned rfl rfl rfl⟩

/-! ### One tree, listed in two orders

A directory with a file in it and a link beside it, which the kernel lists in either order.
The calls of both scans are written out, and they leave one snapshot. -/

/-- The letters `a`, `b` and `c` are proper file names. -/
theorem normal_letter : ∀ letter ∈ ([97, 98, 99] : List UInt8), AbsolutePath.Normal [letter] := by
  simp only [List.forall_mem_cons]
  refine ⟨?_, ?_, ?_, by simp⟩ <;> refine ⟨?_, ?_, ?_⟩ <;> decide

/-- Each of the three is one of them, as the lemma on names of one letter asks. -/
theorem letters_mem : 97 ∈ ([97, 98, 99] : List UInt8) ∧ 98 ∈ ([97, 98, 99] : List UInt8) ∧
    99 ∈ ([97, 98, 99] : List UInt8) := by
  decide

/-- The directory `a` of the sample, which has one entry. -/
def letterA : FileName := ⟨[97], normal_letter 97 letters_mem.1⟩

/-- The link `b` beside it, which is not followed. -/
def letterB : FileName := ⟨[98], normal_letter 98 letters_mem.2.1⟩

/-- The file `c` in the directory, two levels below the root. -/
def letterC : FileName := ⟨[99], normal_letter 99 letters_mem.2.2⟩

/-- The root holds the directory and the link, and the file of the directory is one byte long. -/
def nestedTree (byte : UInt8) : Tree where
  mode := 0o755
  mtime := (11, 0)
  entries := .directory letterA 0o700 (12, 0) (.file letterC 0o644 (13, 0) [byte] .nil)
    (.symlink letterB [97] .nil)

/-- The kernel lists the root in either order. -/
def nestedListing (reversed : Bool) : List DirEntry :=
  .current :: .parent ::
    if reversed then [.named letterB, .named letterA] else [.named letterA, .named letterB]

/-- The scan reads it in the order of the names. -/
theorem sortedNames_nestedListing (reversed : Bool) :
    sortedNames (nestedListing reversed) = [letterA, letterB] := by
  cases reversed
  · show [letterA, letterB].mergeSort _ = _
    rw [Lexicographic.mergeSort_pair]
    rfl
  · show [letterB, letterA].mergeSort _ = _
    rw [Lexicographic.mergeSort_pair]
    rfl

/-- A listing of one name is sorted, as it stands. -/
theorem sortedNames_letterC : sortedNames [.named letterC] = [letterC] :=
  List.mergeSort_singleton letterC

/-- The nodes of the sample, in the order of their inodes: the root, the directory, the file and
the link. -/
def nestedNode (inode : UInt64) : Node :=
  if inode = 1 then ⟨1, 1, .directory, 0o755, 0, 0, 11, 0⟩
  else if inode = 2 then ⟨1, 2, .directory, 0o700, 0, 0, 12, 0⟩
  else if inode = 3 then ⟨1, 3, .file, 0o644, 1, 8, 13, 0⟩
  else ⟨1, 4, .symlink, 0o777, 1, 0, 14, 0⟩

/-- The calls of a scan of the sample. -/
def nestedCalls (reversed : Bool) (byte : UInt8) : List FsExchange :=
  [⟨.fstat 0, .ok (nestedNode 1)⟩, ⟨.mountId 0, .ok (some 1)⟩,
    ⟨.readDir 0, .ok (nestedListing reversed)⟩,
    ⟨.statat 0 letterA, .ok (nestedNode 2)⟩, ⟨.mountIdAt 0 letterA, .ok (some 1)⟩,
    ⟨.openDirectory 0 letterA, .ok 1⟩, ⟨.fstat 1, .ok (nestedNode 2)⟩,
    ⟨.mountId 1, .ok (some 1)⟩, ⟨.readDir 1, .ok [.named letterC]⟩,
    ⟨.statat 1 letterC, .ok (nestedNode 3)⟩, ⟨.mountIdAt 1 letterC, .ok (some 1)⟩,
    ⟨.openFile 1 letterC, .ok 2⟩, ⟨.fstat 2, .ok (nestedNode 3)⟩, ⟨.readAll 2, .ok [byte]⟩,
    ⟨.fstat 2, .ok (nestedNode 3)⟩, ⟨.fstat 1, .ok (nestedNode 2)⟩,
    ⟨.statat 0 letterB, .ok (nestedNode 4)⟩, ⟨.mountIdAt 0 letterB, .ok (some 1)⟩,
    ⟨.readlink 0 letterB, .ok [97]⟩, ⟨.statat 0 letterB, .ok (nestedNode 4)⟩,
    ⟨.fstat 0, .ok (nestedNode 1)⟩]

/-- The snapshot they leave: the file is registered first, then its directory, then the link. -/
def nestedSnapshot (hash : List UInt8 → TreeDigest) (byte : UInt8) : TreeSnapshot :=
  let root := TreeSnapshot.ofRoot (nestedNode 1)
  let counted := { root with manifest := root.manifest.count 1 8 }
  let file := counted.add [letterA, letterC] ⟨nestedNode 3, none, some (hash [byte])⟩
    (some 0o644) (some (13, 0)) 1
  let inner := file.add [letterA] ⟨nestedNode 2, none, none⟩ (some 0o700) (some (12, 0)) 0
  inner.add [letterB] ⟨nestedNode 4, some [97], some (hash [97])⟩ none none 1

/-- The sample calls are a run of the scan, and it returns the sample.  The walk is followed call
by call, and each listing is sorted before it is gone over. -/
theorem traces_nestedCalls (hash : List UInt8 → TreeDigest) (reversed : Bool) (byte : UInt8) :
    Traces (Btrfs.snapshot hash 2 0) (nestedCalls reversed byte)
      (.ok (nestedSnapshot hash byte)) := by
  refine ⟨.ok (nestedNode 1), _, rfl, .ok (some 1), _, rfl, .ok (nestedListing reversed), _, rfl,
    ?_⟩
  change Traces ((List.foldlM (snapshotEntry hash (snapshotDirectory hash 1 1) 0 [] 1)
    (.ofRoot (nestedNode 1)) (sortedNames (nestedListing reversed))).bind _) _ _
  rw [sortedNames_nestedListing]
  refine ⟨.ok (nestedNode 2), _, rfl, .ok (some 1), _, rfl, .ok 1, _, rfl, .ok (nestedNode 2), _,
    rfl, .ok (some 1), _, rfl, .ok [.named letterC], _, rfl, ?_⟩
  change Traces ((((List.foldlM (snapshotEntry hash (snapshotDirectory hash 1 0) 1 [letterA] 1)
    (.ofRoot (nestedNode 1)) (sortedNames [.named letterC])).bind _).bind _).bind _) _ _
  rw [sortedNames_letterC]
  exact ⟨.ok (nestedNode 3), _, rfl, .ok (some 1), _, rfl, .ok 2, _, rfl, .ok (nestedNode 3), _,
    rfl, .ok [byte], _, rfl, .ok (nestedNode 3), _, rfl, .ok (nestedNode 2), _, rfl,
    .ok (nestedNode 4), _, rfl, .ok (some 1), _, rfl, .ok [97], _, rfl, .ok (nestedNode 4), _, rfl,
    .ok (nestedNode 1), _, rfl, rfl, rfl⟩

/-- Whatever the order of the listing, the scan reads the sample. -/
theorem reads_nestedCalls (reversed : Bool) (byte : UInt8) :
    ReadsTree 0 (nestedCalls reversed byte) (nestedTree byte) := by
  have hfile : Reads 1 1 [letterC] (_ :: _ :: ⟨.openFile 1 letterC, .ok 2⟩ :: _)
      (.file letterC 0o644 (13, 0) [byte] .nil) :=
    .file (show (nestedNode 3).kind = .file from rfl) .nil
  have hlink : Reads 1 0 [letterB] _ (.symlink letterB [97] .nil) :=
    .symlink (show (nestedNode 4).kind = .symlink from rfl) .nil
  rw [← sortedNames_letterC] at hfile
  have hentries : Reads 1 0 [letterA, letterB] _ (nestedTree byte).entries :=
    .directory (show (nestedNode 2).kind = .directory from rfl) hfile hlink
  rw [← sortedNames_nestedListing reversed] at hentries
  exact .intro (show (nestedNode 1).kind = .directory from rfl) ⟨rfl, rfl⟩ hentries rfl

/-- No directory of the sample lists a name twice. -/
theorem distinct_nestedTree (byte : UInt8) : (nestedTree byte).Distinct := by
  refine ⟨?_, ⟨?_, trivial⟩, ?_, trivial⟩ <;> simp [Forest.names, letterA, letterB]

/-- A hash that tells apart what the sample hashes: the bytes as the digits of a number. -/
def sumDigest (text : List UInt8) : TreeDigest :=
  ⟨leBytes 32 (text.foldl (fun sum byte => sum * 257 + byte.toNat + 1) 0), length_leBytes _ _⟩

/-- It tells apart the contents of the file in two samples, and the text of the link. -/
theorem tellsApart_nestedTree : ∀ byte ∈ ([1, 2] : List UInt8),
    TellsApart sumDigest (textsOf (nestedTree 1) ++ textsOf (nestedTree byte)) := by
  unfold TellsApart
  decide +kernel

/-- The manifest of the sample is within the widths of the source.  The sample has three entries
with small paths, and each of its times is a small number. -/
theorem fits_nestedSnapshot (byte : UInt8) :
    TreeManifest.format.Fits (nestedSnapshot sumDigest byte).manifest := by
  have htime : ∀ second : ℕ, second < 20 → FitsTime ((second : ℤ), 0) := by
    intro second h
    simp only [FitsTime, FitsI64]
    omega
  refine ⟨htime 11 (by decide), ?_⟩
  intro entry hmem
  change entry ∈ [_, _, _] at hmem
  simp only [List.mem_cons, List.not_mem_nil, or_false] at hmem
  rcases hmem with rfl | rfl | rfl
  · refine ⟨show InMemory (TreePath.bytes [letterA, letterC]).length by decide +kernel, ?_⟩
    rintro time ⟨⟩
    exact htime 13 (by decide)
  · refine ⟨show InMemory (TreePath.bytes [letterA]).length by decide +kernel, ?_⟩
    rintro time ⟨⟩
    exact htime 12 (by decide)
  · exact ⟨show InMemory (TreePath.bytes [letterB]).length by decide +kernel, nofun⟩

end Btrfs
end ThinWorkspace
