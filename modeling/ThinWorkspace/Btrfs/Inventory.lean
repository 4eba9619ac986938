/-
# The objects a scan finds

Source: `snapshot_directory_with_hook` in `crates/thinws-adapter-linux/src/tree.rs`.

`Finds` is `Reads` with the identities of the entries beside the forest, in the order of
its facts.  `snapshot_finds` says that a scan that succeeds has found one tree in this
way, and that the entries of its snapshot are the paths of that tree, each with the kind
and the identity that were found there.
-/

import ThinWorkspace.Btrfs.Manifest

namespace ThinWorkspace
namespace Btrfs

open ThinWorkspace.Core Lib
open Program

/-! ### Trees with identities

`Finds` is the reading of a tree with the identity of each entry beside it.  Without the
identities it is `Reads`, so the two speak of one tree. -/

/-- The calls show the named entries of a held directory and their identities. -/
inductive Finds (rootMount : UInt64) :
    Fd → List FileName → List FsExchange → Forest → List FileIdentity → Prop
  | nil {directory : Fd} : Finds rootMount directory [] [] .nil []
  | directory {directory child : Fd} {name : FileName} {names : List FileName} {before : Node}
      {listed : List DirEntry} {t t' : List FsExchange} {children rest : Forest}
      {inner others : List FileIdentity} (hkind : before.kind = .directory)
      (hchildren : Finds rootMount child (sortedNames listed) t children inner)
      (hrest : Finds rootMount directory names t' rest others) :
      Finds rootMount directory (name :: names)
        (⟨.statat directory name, .ok before⟩ ::
          ⟨.mountIdAt directory name, .ok (some rootMount)⟩ ::
          ⟨.openDirectory directory name, .ok child⟩ :: ⟨.fstat child, .ok before⟩ ::
          ⟨.mountId child, .ok (some rootMount)⟩ :: ⟨.readDir child, .ok listed⟩ ::
          (t ++ ⟨.fstat child, .ok before⟩ :: t'))
        (.directory name before.mode before.mtime children rest)
        (inner ++ before.identity :: others)
  | file {directory file : Fd} {name : FileName} {names : List FileName} {before : Node}
      {content : List UInt8} {t' : List FsExchange} {rest : Forest} {others : List FileIdentity}
      (hkind : before.kind = .file) (hrest : Finds rootMount directory names t' rest others) :
      Finds rootMount directory (name :: names)
        (⟨.statat directory name, .ok before⟩ ::
          ⟨.mountIdAt directory name, .ok (some rootMount)⟩ ::
          ⟨.openFile directory name, .ok file⟩ :: ⟨.fstat file, .ok before⟩ ::
          ⟨.readAll file, .ok content⟩ :: ⟨.fstat file, .ok before⟩ :: t')
        (.file name before.mode before.mtime content rest) (before.identity :: others)
  | symlink {directory : Fd} {name : FileName} {names : List FileName} {before : Node}
      {text : List UInt8} {t' : List FsExchange} {rest : Forest} {others : List FileIdentity}
      (hkind : before.kind = .symlink) (hrest : Finds rootMount directory names t' rest others) :
      Finds rootMount directory (name :: names)
        (⟨.statat directory name, .ok before⟩ ::
          ⟨.mountIdAt directory name, .ok (some rootMount)⟩ ::
          ⟨.readlink directory name, .ok text⟩ :: ⟨.statat directory name, .ok before⟩ :: t')
        (.symlink name text rest) (before.identity :: others)

/-- The calls show the tree below a held root and the identities of its entries. -/
inductive FindsTree (root : Fd) (t : List FsExchange) (tree : Tree)
    (identities : List FileIdentity) : Prop
  | intro {rootMount : UInt64} {before : Node} {listed : List DirEntry} {t' : List FsExchange}
      (hkind : before.kind = .directory)
      (hroot : tree.mode = before.mode ∧ tree.mtime = before.mtime)
      (hentries : Finds rootMount root (sortedNames listed) t' tree.entries identities)
      (hcalls : t = ⟨.fstat root, .ok before⟩ :: ⟨.mountId root, .ok (some rootMount)⟩ ::
        ⟨.readDir root, .ok listed⟩ :: (t' ++ [⟨.fstat root, .ok before⟩]))

variable {rootMount : UInt64} {directory root : Fd} {names : List FileName}
  {t t' : List FsExchange} {forest rest : Forest} {identities others : List FileIdentity}
  {tree : Tree}

/-- What a scan finds with identities it has read without them. -/
theorem Finds.reads (h : Finds rootMount directory names t forest identities) :
    Reads rootMount directory names t forest := by
  induction h with
  | nil => exact .nil
  | directory hkind _ _ ihc ihr => exact .directory hkind ihc ihr
  | file hkind _ ihr => exact .file hkind ihr
  | symlink hkind _ ihr => exact .symlink hkind ihr

/-- The same of a whole tree. -/
theorem FindsTree.reads (h : FindsTree root t tree identities) : ReadsTree root t tree := by
  obtain ⟨hkind, hroot, hentries, hcalls⟩ := h
  exact .intro hkind hroot hentries.reads hcalls

/-- Every fact has one identity. -/
theorem Finds.length (h : Finds rootMount directory names t forest identities) (base : TreePath) :
    (forest.facts base).length = identities.length := by
  induction h generalizing base with
  | nil => rfl
  | directory _ _ _ ihc ihr => simp [Forest.facts, ihc, ihr]
  | file _ _ ihr => simp [Forest.facts, ihr]
  | symlink _ _ ihr => simp [Forest.facts, ihr]

/-! ### The entries of a snapshot

A snapshot registers an entry under its path, with what the reading found.  The entries of
several rounds are put together by `Gains.trans`. -/

/-- The entry of a snapshot is that of a fact with its identity. -/
structure Registers (entry : SnapshotEntry) (path : TreePath) (found : EntryFact × FileIdentity) :
    Prop where
  path : found.1.path = path
  kind : entry.node.kind = entryNodeKind found.1.kind
  identity : entry.node.identity = found.2

/-- The snapshot goes on with the entries that were found. -/
structure Gains (before after : TreeSnapshot) (found : List (EntryFact × FileIdentity)) :
    Prop where
  mem : ∀ path, path ∈ after.entries ↔
    path ∈ before.entries ∨ path ∈ found.map fun entry => entry.1.path
  lookup : ∀ path entry, after.entries.lookup path = some entry →
    before.entries.lookup path = some entry ∨ ∃ one ∈ found, Registers entry path one

variable {snapshot snapshot' first second third : TreeSnapshot}
  {found found' : List (EntryFact × FileIdentity)}

/-- A snapshot gains nothing by no entry. -/
theorem Gains.refl (snapshot : TreeSnapshot) : Gains snapshot snapshot [] :=
  ⟨by simp, fun _ _ h => .inl h⟩

/-- A snapshot gains what the one part and then the other add. -/
theorem Gains.trans (h : Gains first second found) (h' : Gains second third found') :
    Gains first third (found ++ found') where
  mem path := by rw [h'.mem, h.mem, List.map_append, List.mem_append, or_assoc]
  lookup path entry hlookup := by
    rcases h'.lookup path entry hlookup with hsecond | ⟨one, hmem, hone⟩
    · rcases h.lookup path entry hsecond with hfirst | ⟨one, hmem, hone⟩
      · exact .inl hfirst
      · exact .inr ⟨one, List.mem_append_left _ hmem, hone⟩
    · exact .inr ⟨one, List.mem_append_right _ hmem, hone⟩

/-- The end of a round adds one entry. -/
theorem gains_add (snapshot : TreeSnapshot) (path : TreePath) (entry : SnapshotEntry)
    (mode : Option UInt32) (mtime : Option (ℤ × ℤ)) (length : UInt64)
    (one : EntryFact × FileIdentity) (hone : Registers entry path one) :
    Gains snapshot (snapshot.add path entry mode mtime length) [one] where
  mem other := by
    have hinsert : other ∈ (snapshot.add path entry mode mtime length).entries ↔
        other = path ∨ other ∈ snapshot.entries := Finmap.mem_insert
    rw [hinsert, List.map_singleton, List.mem_singleton, hone.path, or_comm]
  lookup other seen hlookup := by
    change (snapshot.entries.insert path entry).lookup other = some seen at hlookup
    by_cases hother : other = path
    · subst hother
      rw [Finmap.lookup_insert] at hlookup
      cases hlookup
      exact .inr ⟨one, List.mem_singleton_self _, hone⟩
    · rw [Finmap.lookup_insert_of_ne _ hother] at hlookup
      exact .inl hlookup

/-! ### The runs of a scan

The runs of a scan, once more, with the identities: each round finds its entry and registers
it. -/

variable {blake3 : List UInt8 → TreeDigest} {base : TreePath} {name : FileName}
  {descend : Fd → TreePath → TreeSnapshot → Fs TreeSnapshot}

/-- What the scan of a directory finds and registers. -/
def Surveys (rootMount : UInt64) (scan : Fd → TreePath → TreeSnapshot → Fs TreeSnapshot) : Prop :=
  ∀ ⦃directory base snapshot t snapshot'⦄, Traces (scan directory base snapshot) t (.ok snapshot') →
    ∃ listed t' forest identities, t = ⟨.readDir directory, .ok listed⟩ :: t' ∧
      Finds rootMount directory (sortedNames listed) t' forest identities ∧
      Gains snapshot snapshot' ((forest.facts base).zip identities)

/-- One round of a scan, before the rounds that follow it.  There is one case for each kind of
entry, and the identity that is registered is the one of its last look. -/
theorem Round.finds (hdescend : Surveys rootMount descend)
    (h : Round blake3 descend directory base rootMount snapshot name t snapshot')
    (hrest : Finds rootMount directory names t' rest others) :
    ∃ forest identities added,
      Finds rootMount directory (name :: names) (t ++ t') forest identities ∧
      Gains snapshot snapshot' added ∧
      (forest.facts base).zip identities = added ++ (rest.facts base).zip others := by
  cases h with
  | @directory before child t inner hkind hinner =>
    obtain ⟨listed, tc, children, ids, rfl, hchildren, hgains⟩ := hdescend hinner
    have hfinds : Finds _ directory (name :: names) _ (.directory name _ _ children rest) _ :=
      .directory hkind hchildren hrest
    have hadd := gains_add inner (base ++ [name]) ⟨before, none, none⟩ (some before.mode)
      (some before.mtime) 0
      (⟨base ++ [name], .directory, some before.mode, some before.mtime, none⟩, before.identity)
      ⟨rfl, hkind, rfl⟩
    refine ⟨_, _, _, by simpa using hfinds, hgains.trans hadd, ?_⟩
    rw [Forest.facts, List.zip_append (hchildren.length _)]
    simp
  | @file before file content hkind =>
    have hfinds : Finds rootMount directory (name :: names)
        (_ :: _ :: ⟨.openFile _ _, .ok file⟩ :: _)
        (.file name before.mode before.mtime content rest) _ := .file hkind hrest
    have hadd := gains_add
      { snapshot with
        manifest := snapshot.manifest.count (saturate content.length) before.blocks }
      (base ++ [name]) ⟨before, none, some (blake3 content)⟩ (some before.mode)
      (some before.mtime) (saturate content.length)
      (⟨base ++ [name], .regularFile, some before.mode, some before.mtime, some content⟩,
        before.identity)
      ⟨rfl, hkind, rfl⟩
    exact ⟨_, _, _, by simpa using hfinds, ⟨hadd.mem, hadd.lookup⟩, rfl⟩
  | @symlink before text hkind =>
    have hfinds : Finds rootMount directory (name :: names) _ (.symlink name text rest) _ :=
      .symlink hkind hrest
    have hadd := gains_add snapshot (base ++ [name]) ⟨before, some text, some (blake3 text)⟩ none
      none (saturate text.length) (⟨base ++ [name], .symbolicLink, none, none, some text⟩,
        before.identity) ⟨rfl, hkind, rfl⟩
    exact ⟨_, _, _, by simpa using hfinds, hadd, rfl⟩

/-- Going over the names of a directory finds their entries in that order.  The induction is on the
names, and each round is put before those that follow it. -/
theorem foldlM_finds (hdescend : Surveys rootMount descend)
    (h : Traces (names.foldlM (snapshotEntry blake3 descend directory base rootMount) snapshot) t
      (.ok snapshot')) :
    ∃ forest identities, Finds rootMount directory names t forest identities ∧
      Gains snapshot snapshot' ((forest.facts base).zip identities) := by
  induction names generalizing snapshot t with
  | nil =>
    obtain ⟨rfl, he⟩ := traces_pure.mp h
    cases he
    exact ⟨.nil, [], .nil, .refl _⟩
  | cons name names ih =>
    rw [List.foldlM_cons] at h
    obtain ⟨next, t₁, t₂, rfl, hentry, hnames⟩ := traces_bind_ok.mp h
    obtain ⟨rest, others, hrest, hgains⟩ := ih hnames
    obtain ⟨forest, identities, added, hfinds, hadded, hzip⟩ :=
      (round_of_traces hentry).finds hdescend hrest
    refine ⟨forest, identities, hfinds, ?_⟩
    rw [hzip]
    exact hadded.trans hgains

/-- The scan of a directory finds what is below it: an induction on the frames. -/
theorem surveys_snapshotDirectory (frames : ℕ) :
    Surveys rootMount (snapshotDirectory blake3 rootMount frames) := by
  induction frames with
  | zero =>
    rintro directory base snapshot t snapshot' h
    obtain ⟨result, -⟩ := traces_perform_bind.mp h
    exact nomatch result
  | succ frames ih =>
    rintro directory base snapshot t snapshot' h
    obtain ⟨names, t₁, t₂, rfl, hnames, hfold⟩ := traces_bind_ok.mp h
    obtain ⟨listed, rfl, rfl⟩ := traces_directoryNames.mp hnames
    obtain ⟨forest, identities, hfinds, hgains⟩ := foldlM_finds ih hfold
    exact ⟨listed, t₂, forest, identities, rfl, hfinds, hgains⟩

/-- **A scan that succeeds has found one tree**, and has its entries.  Finding a tree is reading it
with the identities beside, so the tree is the one of the manifest. -/
theorem snapshot_finds {frames : ℕ}
    (h : Traces (Btrfs.snapshot blake3 frames root) t (.ok snapshot')) :
    ∃ tree identities, FindsTree root t tree identities ∧
      (tree.entries.facts []).length = identities.length ∧
      TreeManifest.format.Scanned blake3 tree snapshot'.manifest ∧
      (∀ path, path ∈ snapshot'.entries ↔ path ∈ (tree.entries.facts []).map (·.path)) ∧
      ∀ path entry, snapshot'.entries.lookup path = some entry →
        ∃ one ∈ (tree.entries.facts []).zip identities, Registers entry path one := by
  obtain ⟨tree', hreads, hscanned⟩ := snapshot_reads h
  obtain ⟨before, mount, t', hkind, rfl, hscan⟩ := snapshot_cases h
  obtain ⟨listed, t', entries, identities, rfl, hentries, hgains⟩ :=
    surveys_snapshotDirectory frames hscan
  have hfinds : FindsTree root _ ⟨before.mode, before.mtime, entries⟩ identities :=
    .intro hkind ⟨rfl, rfl⟩ hentries rfl
  obtain rfl := hreads.unique hfinds.reads
  have hlength := hentries.length []
  refine ⟨_, identities, hfinds, hlength, hscanned, fun path => ?_, fun path entry hlookup => ?_⟩
  · have hpaths : ((entries.facts []).zip identities).map (fun entry => entry.1.path) =
        (entries.facts []).map (·.path) := by
      conv_rhs => rw [← List.map_fst_zip hlength.le, List.map_map]
      rfl
    rw [hgains.mem, hpaths]
    exact or_iff_right Finmap.notMem_empty
  · refine (hgains.lookup path entry hlookup).resolve_left fun h => ?_
    rw [show (TreeSnapshot.ofRoot before).entries = ∅ from rfl, Finmap.lookup_empty] at h
    cases h

end Btrfs
end ThinWorkspace
