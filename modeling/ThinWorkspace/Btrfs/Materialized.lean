/-
# What a materialization leaves

Source: `materialize_with_hook` and `created_matches_target` in
`crates/thinws-adapter-linux/src/materializer.rs`.

`Copied` is what an attempt that succeeds has done.  The source showed one tree before and
after the copying, and the last scan of the target found this tree.  Every entry of it was
made by the attempt and stands once in the receipt, under the identity the scan found.
After that scan the attempt only reads, and removes what an earlier attempt left in trash.

`materialize_copies` assumes that the kernel lists no name of a directory twice, and that
the hash tells apart the files and link texts that the run read.
-/

import ThinWorkspace.Btrfs.Inventory
import ThinWorkspace.Btrfs.RollbackHonest
import ThinWorkspace.Btrfs.Walk
import ThinWorkspace.Core.PlanSound

namespace ThinWorkspace
namespace Btrfs

open ThinWorkspace.Core Lib Ports
open Program

/-! ### The regular files of a tree

The counters of a manifest saturate, and saturated sums add up to the saturated sum.  So
they are those of the tree, whatever the sizes are. -/

/-- The contents of the regular files, in the order of the walk. -/
def fileContents : Forest → List (List UInt8)
  | .nil => []
  | .directory _ _ _ children rest => fileContents children ++ fileContents rest
  | .file _ _ _ content rest => content :: fileContents rest
  | .symlink _ _ rest => fileContents rest

/-- The bytes of the regular files, as the counter of a manifest sums them up. -/
def contentLength : Forest → ℕ
  | .nil => 0
  | .directory _ _ _ children rest => contentLength children + contentLength rest
  | .file _ _ _ content rest => content.length + contentLength rest
  | .symlink _ _ rest => contentLength rest

/-- A number that is saturated is the number or the greatest `u64`. -/
theorem toNat_saturate (n : ℕ) : (saturate n).toNat = min n u64Max := by
  unfold saturate u64Max
  rw [UInt64.toNat_ofNat']
  omega

/-- Saturated numbers add up to their saturated sum, so a sum may be saturated at its end. -/
theorem saturatingAdd_saturate (m n : ℕ) :
    saturatingAdd (saturate m) (saturate n) = saturate (m + n) := by
  rw [saturatingAdd, toNat_saturate, toNat_saturate, saturate, saturate]
  congr 1
  omega

variable {blake3 : List UInt8 → TreeDigest}

/-- The manifest counts the regular files of the tree, by induction on the forest.  A directory
counts nothing itself, so its children come first and the rest is counted on from there. -/
theorem countFiles_facts (hash : List UInt8 → TreeDigest) (forest : Forest) (base : TreePath)
    (n : ℕ) :
    TreeManifest.format.countFiles (saturate n) ((forest.facts base).map (fieldsOf hash)) =
      saturate (n + (fileContents forest).length) := by
  induction forest generalizing base n with
  | nil => rfl
  | directory name mode mtime children rest ihc ihr =>
    have hother : ¬(1 : UInt8) = 2 := by decide
    have hchildren := ihc (base ++ [name]) n
    have hrest := ihr base (n + (fileContents children).length)
    simp only [ManifestFormat.countFiles, Forest.facts, List.map_append, List.map_cons,
      List.foldl_append, List.foldl_cons, fieldsOf, factTag, hother, if_false]
      at hchildren hrest ⊢
    rw [hchildren, hrest, fileContents, List.length_append, Nat.add_assoc]
  | file name mode mtime content rest ihr =>
    have hone : TreeManifest.format.countOne (saturate n) = saturate (n + 1) :=
      saturatingAdd_saturate n 1
    have hrest := ihr base (n + 1)
    simp only [ManifestFormat.countFiles, Forest.facts, List.map_cons, List.foldl_cons, fieldsOf,
      factTag, if_true] at hrest ⊢
    rw [hone, hrest, fileContents, List.length_cons]
    congr 1
    omega
  | symlink name text rest ihr =>
    have hother : ¬(3 : UInt8) = 2 := by decide
    have hrest := ihr base n
    simp only [ManifestFormat.countFiles, Forest.facts, List.map_cons, List.foldl_cons, fieldsOf,
      factTag, hother, if_false] at hrest ⊢
    rw [hrest, fileContents]

/-- The manifest adds up their lengths, by induction on the forest.  A directory adds nothing
itself, so its children come first and the rest is added on from there. -/
theorem countBytes_facts (hash : List UInt8 → TreeDigest) (forest : Forest) (base : TreePath)
    (n : ℕ) :
    ManifestFormat.countBytes (saturate n) ((forest.facts base).map (fieldsOf hash)) =
      saturate (n + contentLength forest) := by
  induction forest generalizing base n with
  | nil => rfl
  | directory name mode mtime children rest ihc ihr =>
    have hother : ¬(1 : UInt8) = 2 := by decide
    have hchildren := ihc (base ++ [name]) n
    have hrest := ihr base (n + contentLength children)
    simp only [ManifestFormat.countBytes, Forest.facts, List.map_append, List.map_cons,
      List.foldl_append, List.foldl_cons, fieldsOf, factTag, hother, if_false]
      at hchildren hrest ⊢
    rw [hchildren, hrest, contentLength, Nat.add_assoc]
  | file name mode mtime content rest ihr =>
    have hone := saturatingAdd_saturate n content.length
    have hrest := ihr base (n + content.length)
    simp only [ManifestFormat.countBytes, Forest.facts, List.map_cons, List.foldl_cons, fieldsOf,
      factTag, if_true, Option.map_some, Option.getD_some] at hrest ⊢
    rw [hone, hrest, contentLength, Nat.add_assoc]
  | symlink name text rest ihr =>
    have hother : ¬(3 : UInt8) = 2 := by decide
    have hrest := ihr base n
    simp only [ManifestFormat.countBytes, Forest.facts, List.map_cons, List.foldl_cons, fieldsOf,
      factTag, hother, if_false] at hrest ⊢
    rw [hrest, contentLength]

/-! ### The texts a run read

The texts that occur in a run, contents of files and texts of links.  The hash is asked to
tell these apart and no others. -/

/-- The bytes of a file, or the text of a link, that the exchange read. -/
def textRead? : FsExchange → Option (List UInt8)
  | ⟨.readAll _, .ok bytes⟩ => some bytes
  | ⟨.readlink _ _, .ok text⟩ => some text
  | _ => none

/-- The texts the run read: the contents of files and the texts of links, which a hash has to tell
apart. -/
def textsRead (t : List FsExchange) : List (List UInt8) := t.filterMap textRead?

variable {rootMount : UInt64} {directory root : Fd} {names : List FileName}
  {t t' : List FsExchange} {forest : Forest} {tree tree' : Tree} {identities : List FileIdentity}

/-- The texts of the facts that a scan has shown are texts it has read.  The induction is on the
reading: a file shows its content and a link its target, and both were answers of a call. -/
theorem Reads.texts (h : Reads rootMount directory names t forest) (base : TreePath) :
    ∀ fact ∈ forest.facts base, ∀ bytes ∈ fact.bytes, bytes ∈ textsRead t := by
  induction h generalizing base with
  | nil => simp [Forest.facts]
  | directory _ _ _ ihc ihr =>
    intro fact hmem bytes hbytes
    simp only [textsRead, List.filterMap_cons, textRead?, List.filterMap_append, List.mem_append]
    rcases List.mem_append.mp hmem with hmem | hmem
    · exact .inl (ihc _ fact hmem bytes hbytes)
    · rcases List.mem_cons.mp hmem with rfl | hmem
      · cases hbytes
      · exact .inr (ihr _ fact hmem bytes hbytes)
  | file _ _ ihr =>
    intro fact hmem bytes hbytes
    simp only [textsRead, List.filterMap_cons, textRead?, List.mem_cons]
    rcases List.mem_cons.mp hmem with rfl | hmem
    · exact .inl (Option.some.inj hbytes).symm
    · exact .inr (ihr _ fact hmem bytes hbytes)
  | symlink _ _ ihr =>
    intro fact hmem bytes hbytes
    simp only [textsRead, List.filterMap_cons, textRead?, List.mem_cons]
    rcases List.mem_cons.mp hmem with rfl | hmem
    · exact .inl (Option.some.inj hbytes).symm
    · exact .inr (ihr _ fact hmem bytes hbytes)

/-- The texts of a tree that a scan has shown are texts it has read. -/
theorem ReadsTree.texts (h : ReadsTree root t tree) :
    ∀ text ∈ textsOf tree, text ∈ textsRead t := by
  obtain ⟨-, -, hentries, rfl⟩ := h
  intro text hmem
  obtain ⟨fact, hfact, hbytes⟩ := List.mem_filterMap.mp hmem
  have htext := hentries.texts [] fact hfact text hbytes
  simp only [textsRead, List.filterMap_cons, textRead?, List.filterMap_append, List.mem_append]
  exact .inl htext

/-- The hash tells apart the texts of two trees that parts of the run show. -/
theorem TellsApart.trees {root' : Fd} {t₁ t₂ : List FsExchange}
    (h : TellsApart blake3 (textsRead t)) (hreads : ReadsTree root t₁ tree)
    (hreads' : ReadsTree root' t₂ tree') (hsub : t₁.Sublist t) (hsub' : t₂.Sublist t) :
    TellsApart blake3 (textsOf tree ++ textsOf tree') := by
  have hread : ∀ text ∈ textsOf tree ++ textsOf tree', text ∈ textsRead t := by
    intro text hmem
    rcases List.mem_append.mp hmem with hmem | hmem
    · exact (hsub.filterMap _).subset (hreads.texts text hmem)
    · exact (hsub'.filterMap _).subset (hreads'.texts text hmem)
  exact fun a ha b hb => h a (hread a ha) b (hread b hb)

/-! ### The paths of a tree

A file system lists a name once, and then no path occurs twice in a tree. -/

/-- Where the kernel lists every name of a directory once, so does the tree the scan read. -/
theorem ReadsTree.distinct (h : ReadsTree root t tree) (honce : ListsOnce t) : tree.Distinct := by
  obtain ⟨-, -, hentries, rfl⟩ := h
  have hsorted : ∀ fd listed, (⟨.readDir fd, .ok listed⟩ : FsExchange) ∈ _ →
      (sortedNames listed).Nodup := fun fd listed hmem =>
    (List.mergeSort_perm _ _).nodup_iff.mpr (honce fd listed hmem)
  exact (hentries.each (hsorted root _ (by simp)) fun fd listed hmem =>
    hsorted fd listed (by simp [hmem])).2

/-- Where no directory lists a name twice, the paths of a tree differ. -/
theorem ReadsTree.paths (h : ReadsTree root t tree) (honce : ListsOnce t) :
    ((tree.entries.facts []).map (·.path)).Nodup :=
  Forest.nodup_paths (h.distinct honce) []

/-! ### The entries of the receipt

The target is accepted when its entries are those of the created list, by path, kind and
identity.  As no path occurs twice in either, the two are permutations of each other. -/

/-- Different kinds of entries are made of different kinds of nodes. -/
theorem entryNodeKind_injective : Function.Injective entryNodeKind := by
  intro a b h
  cases a <;> cases b <;> first | rfl | cases h

/-- **The created list is the tree.**  Where each path stands once in either, a target that
`created_matches_target` accepts has just the entries that were created. -/
theorem created_perm {target : TreeSnapshot} {created : List TrackedCreated}
    {facts : List EntryFact} (hlength : facts.length = identities.length)
    (hfacts : (facts.map (·.path)).Nodup) (hcreated : (created.map (·.path)).Nodup)
    (hmem : ∀ path, path ∈ target.entries ↔ path ∈ facts.map (·.path))
    (hlookup : ∀ path entry, target.entries.lookup path = some entry →
      ∃ one ∈ facts.zip identities, Registers entry path one)
    (hmatches : createdMatchesTarget target created = true) :
    (created.map fun entry => (entry.path, entry.kind, entry.identity)).Perm
      ((facts.zip identities).map fun one => (one.1.path, one.1.kind, some one.2)) := by
  simp only [createdMatchesTarget, Bool.and_eq_true, beq_iff_eq, List.all_eq_true] at hmatches
  obtain ⟨hcard, hall⟩ := hmatches
  have hkeys : target.entries.keys = (facts.map (·.path)).toFinset := by
    ext path
    rw [Finmap.mem_keys, hmem, List.mem_toFinset]
  have hcount : created.length = facts.length := by
    rw [← hcard, hkeys, List.toFinset_card_of_nodup hfacts, List.length_map]
  have hnodup : (created.map fun entry => (entry.path, entry.kind, entry.identity)).Nodup := by
    refine List.Nodup.of_map Prod.fst ?_
    rwa [List.map_map]
  refine (List.subperm_of_subset hnodup fun triple htriple => ?_).perm_of_length_le ?_
  · obtain ⟨entry, hentry, rfl⟩ := List.mem_map.mp htriple
    obtain ⟨observed, hobserved, hsame⟩ := (Option.any_eq_true _ _).mp (hall entry hentry)
    simp only [Bool.and_eq_true, beq_iff_eq] at hsame
    obtain ⟨one, hone, hregisters⟩ := hlookup _ _ hobserved
    refine List.mem_map.mpr ⟨one, hone, ?_⟩
    have hkind : one.1.kind = entry.kind :=
      entryNodeKind_injective (hregisters.kind.symm.trans hsame.1)
    rw [hregisters.path, hkind, hsame.2, hregisters.identity]
  · rw [List.length_map, List.length_map, List.length_zip, ← hlength, Nat.min_self, hcount]

/-! ### The parts of a run

The parts of an attempt that succeeded: the directories were bound, the source was scanned
twice, the target was scanned last.  Between its last scan and the receipt nothing touches
the target. -/

section Run

variable {frames : ℕ} {request : MaterializeRequest} {plan : MaterializationPlan}
  {backend : Backend} {receipt : MaterializationReceipt} {paths : BoundPaths}
  {source : TreeSnapshot} {context : ExecutionContext}

/-- The exchange reads, or removes an object from the trash. -/
def LeavesTarget (trash : Fd) (exchange : FsExchange) : Prop :=
  exchange.op.Reads ∨ ∃ name asDirectory, exchange.op = .unlink trash name asDirectory

/-- What a receipt of success says of the entries and the bytes is what was tracked and scanned. -/
theorem successReceipt_ok {target : TreeSnapshot} {elapsed : UInt64}
    (h : successReceipt backend blake3 plan source target context elapsed = .ok receipt) :
    receipt.created = context.created.map TrackedCreated.evidence ∧
      receipt.regularFileCount = some source.manifest.regularFiles ∧
      receipt.logicalBytes = some source.manifest.logicalBytes := by
  cases backend with
  | cow =>
    obtain ⟨_, h⟩ := Fallible.refuseIf_bind_ok h
    obtain ⟨_, h⟩ := Fallible.refuseIf_bind_ok h
    obtain ⟨_, h⟩ := Fallible.refuseIf_bind_ok h
    cases h
    exact ⟨rfl, rfl, rfl⟩
  | fullCopy =>
    obtain ⟨_, h⟩ := Fallible.refuseIf_bind_ok h
    obtain ⟨_, h⟩ := Fallible.refuseIf_bind_ok h
    cases h
    exact ⟨rfl, rfl, rfl⟩

/-- The attempt opens its directories and scans its source before it copies.  The checks before the
scan make calls of their own, and the comparison behind it makes none. -/
theorem bindPaths_scans
    (h : Traces (bindPaths blake3 frames request plan backend) t (.ok (paths, source))) :
    ∃ before first, t = before ++ first ∧
      (∃ report, Ran (BoundPaths.open request report) (.ok paths) before) ∧
      Traces (snapshot blake3 frames paths.source) first (.ok source) := by
  unfold bindPaths at h
  obtain ⟨_, t₁, _, rfl, -, h₁⟩ := traces_bind_ok.mp h
  obtain ⟨fresh, t₂, _, rfl, -, h₂⟩ := traces_bind_ok.mp h₁
  obtain ⟨_, t₃, _, rfl, -, h₃⟩ := traces_bind_ok.mp h₂
  obtain ⟨bound, t₄, _, rfl, hopen, h₄⟩ := traces_bind_ok.mp h₃
  obtain ⟨_, t₅, _, rfl, -, h₅⟩ := traces_bind_ok.mp h₄
  obtain ⟨_, t₆, _, rfl, -, h₆⟩ := traces_bind_ok.mp h₅
  obtain ⟨_, t₇, _, rfl, -, h₇⟩ := traces_bind_ok.mp h₆
  obtain ⟨scanned, t₈, _, rfl, hscan, h₈⟩ := traces_bind_ok.mp h₇
  obtain ⟨_, t₉, _, rfl, hsame, h₉⟩ := traces_bind_ok.mp h₈
  obtain ⟨-, rfl⟩ := traces_require.mp hsame
  obtain ⟨rfl, he⟩ := traces_pure.mp h₉
  cases he
  refine ⟨t₁ ++ t₂ ++ t₃ ++ t₄ ++ t₅ ++ t₆ ++ t₇, t₈, by simp, ⟨fresh, ?_⟩, hscan⟩
  exact hopen.ran.mono ⟨t₁ ++ t₂ ++ t₃, t₅ ++ t₆ ++ t₇, by simp⟩

/-- Looking at an earlier quarantine only reads, so it changes neither tree. -/
theorem reads_confirmQuarantined {attempt : FailedMaterializationAttempt}
    {removed quarantine : RelativePath} :
    Only FsCall.Reads (confirmQuarantined paths attempt removed quarantine) := by
  unfold confirmQuarantined
  refine only_orMissing.bind fun created => only_orMissing.bind fun identity =>
    only_orMissing.bind fun name => reads_nodeAt.bind fun observed =>
      only_require.bind fun _ => ?_
  split
  · exact reads_openDirectory.bind fun _ => reads_ensureEmpty.bind fun _ => trivial
  · trivial

/-- What happens to a quarantine of an earlier attempt happens in the trash.  It reads what is
there and unlinks what the earlier attempt had quarantined, all under the descriptor of the trash.
-/
theorem clearConfirmedPriorQuarantine_leaves :
    Only (fun c => c.Reads ∨ ∃ name asDirectory, c = .unlink paths.trash name asDirectory)
      (clearConfirmedPriorQuarantine paths plan) := by
  have hremove : ∀ confirmed, Only (fun c => c.Reads ∨
      ∃ name asDirectory, c = .unlink paths.trash name asDirectory)
      (removeQuarantined paths confirmed) := by
    intro confirmed
    induction confirmed with
    | nil => exact reads_ensureEmpty.mono fun _ h => .inl h
    | cons one confirmed ih =>
      exact (only_sys (only_perform (.inr ⟨_, _, rfl⟩))).bind fun _ => ih
  unfold clearConfirmedPriorQuarantine
  split
  · exact reads_ensureEmpty.mono fun _ h => .inl h
  · split
    · exact only_require.bind fun _ => reads_ensureEmpty.mono fun _ h => .inl h
    · refine only_require.bind fun _ => Only.bind ?_ fun confirmed =>
        Only.bind (reads_directoryNames.mono fun _ h => .inl h) fun _ =>
          only_require.bind fun _ => hremove confirmed
      exact (Only.mapM (fun _ => reads_confirmQuarantined) _).mono fun _ h => .inl h
  · trivial

/-- What an attempt that succeeds has done: in the run with these parts the source showed the
tree, before and after the copying, and the target ended as the same tree. -/
structure Copied (paths : BoundPaths) (receipt : MaterializationReceipt)
    (first copying again last rest : List FsExchange) (tree : Tree)
    (identities : List FileIdentity) : Prop where
  source : ReadsTree paths.source first tree
  unchanged : ReadsTree paths.source again tree
  target : FindsTree paths.target last tree identities
  left : ∀ exchange ∈ rest, LeavesTarget paths.trash exchange
  made : ∀ one ∈ (tree.entries.facts []).zip identities,
    Made paths.staging copying one.1.path one.1.kind (some one.2)
  created : (receipt.created.map fun entry => (entry.path.asBytes, entry.kind, entry.identity)).Perm
    (((tree.entries.facts []).zip identities).map fun one =>
      (one.1.path.bytes, one.1.kind, some one.2))
  once : (receipt.created.map (·.path)).Nodup
  regularFiles : receipt.regularFileCount = some (saturate (fileContents tree.entries).length)
  logicalBytes : receipt.logicalBytes = some (saturate (contentLength tree.entries))

/-- The second half of an attempt, after its first scan of the source.  The walk comes first, then
the source is scanned again and has to be what it was, and then the target is scanned and compared
with it. -/
theorem materializeBound_copied {first : List FsExchange}
    (hcontext : context.created = [])
    (hfirst : Traces (snapshot blake3 frames paths.source) first (.ok source))
    (h : Traces (materializeBound blake3 frames request plan backend paths source context) t
      (.ok receipt)) (honce : ListsOnce t)
    (happart : TellsApart blake3 (textsRead (first ++ t))) :
    ∃ copying again last rest tree identities, t = copying ++ (again ++ (last ++ rest)) ∧
      Copied paths receipt first copying again last rest tree identities := by
  unfold materializeBound at h
  obtain ⟨walked, t₁, _, rfl, hwalk, h₁⟩ := traces_bind_ok.mp h
  obtain ⟨root, t₂, _, rfl, -, h₂⟩ := traces_bind_ok.mp h₁
  obtain ⟨_, t₃, _, rfl, -, h₃⟩ := traces_bind_ok.mp h₂
  obtain ⟨sourceAfter, again, _, rfl, hagain, h₄⟩ := traces_bind_ok.mp h₃
  obtain ⟨_, t₄, _, rfl, hsame, h₅⟩ := traces_bind_ok.mp h₄
  obtain ⟨targetAfter, last, t₅, rfl, hlast, h₆⟩ := traces_bind_ok.mp h₅
  obtain ⟨_, t₆, t₇, rfl, hverified, h₇⟩ := traces_bind_ok.mp h₆
  obtain ⟨_, t₈, t₉, rfl, hrevalidated, h₈⟩ := traces_bind_ok.mp h₇
  obtain ⟨_, t₁₀, t₁₁, rfl, hcleared, h₉⟩ := traces_bind_ok.mp h₈
  obtain ⟨elapsed, t₁₂, rfl, hend⟩ := traces_perform_bind.mp h₉
  obtain ⟨rfl, rfl⟩ := traces_require.mp (traces_within.mp hsame)
  obtain ⟨⟨hmatches, hcreated⟩, rfl⟩ := traces_require.mp (traces_within.mp hverified)
  obtain ⟨rfl, hreceipt⟩ := traces_ofExcept_ok.mp (traces_within.mp hend)
  have hagain' := traces_mapError_ok.mp (traces_within.mp hagain)
  have hlast' := traces_mapError_ok.mp (traces_within.mp hlast)
  simp only [List.nil_append] at honce happart
  have hclear : Only
      (fun c => c.Reads ∨ ∃ name asDirectory, c = .unlink paths.trash name asDirectory)
      (if backend = .fullCopy then clearConfirmedPriorQuarantine paths plan else pure ()) := by
    split
    · exact clearConfirmedPriorQuarantine_leaves
    · trivial
  have hleft : ∀ exchange ∈ t₈ ++ (t₁₀ ++ [⟨.elapsedMillis, elapsed⟩]),
      LeavesTarget paths.trash exchange := by
    intro exchange hmem
    rcases List.mem_append.mp hmem with hmem | hmem
    · exact .inl ((only_within reads_revalidate).traces hrevalidated exchange hmem)
    · rcases List.mem_append.mp hmem with hmem | hmem
      · exact (only_within hclear).traces hcleared exchange hmem
      · obtain rfl := List.mem_singleton.mp hmem
        exact .inl trivial
  generalize t₈ ++ (t₁₀ ++ [⟨.elapsedMillis, elapsed⟩]) = rest at honce happart hleft ⊢
  have hagainSub : again.Sublist (t₁ ++ (t₂ ++ (t₃ ++ (again ++ (last ++ rest))))) :=
    List.IsInfix.sublist ⟨t₁ ++ t₂ ++ t₃, last ++ rest, by simp⟩
  have hlastSub : last.Sublist (t₁ ++ (t₂ ++ (t₃ ++ (again ++ (last ++ rest))))) :=
    List.IsInfix.sublist ⟨t₁ ++ t₂ ++ t₃ ++ again, rest, by simp⟩
  have hsub := List.sublist_append_right first (t₁ ++ (t₂ ++ (t₃ ++ (again ++ (last ++ rest)))))
  -- The three scans have read trees whose manifests agree.
  obtain ⟨tree, hreads, hscanned⟩ := snapshot_reads hfirst
  obtain ⟨tree₁, hreads₁, hscanned₁⟩ := snapshot_reads hagain'
  obtain ⟨tree₂, identities, hfinds, hlength, hscanned₂, hmem, hlookup⟩ := snapshot_finds hlast'
  have hunchanged : tree₁ = tree :=
    (hscanned₁.sameTree_iff hscanned (happart.trees hreads₁ hreads (hagainSub.trans hsub)
      (List.sublist_append_left _ _))).mp ⟨rfl, rfl, rfl⟩
  have hcopied : tree₂ = tree :=
    (hscanned₂.sameTree_iff hscanned (happart.trees hfinds.reads hreads (hlastSub.trans hsub)
      (List.sublist_append_left _ _))).mp ((hscanned₂.matches_iff hscanned).mp hmatches)
  subst hunchanged hcopied
  -- The walk has listed the entries of the last scan.
  obtain ⟨added, hadded, hmade, hnodup⟩ := materializeDirectory_adds frames
    (honce.sublist (List.sublist_append_left t₁ _)) hwalk
  rw [hcontext, List.nil_append] at hadded
  rw [← hadded] at hmade hnodup
  have hperm := created_perm hlength (hfinds.reads.paths (honce.sublist hlastSub)) hnodup hmem
    hlookup hcreated
  obtain ⟨hlisted, hfiles, hbytes⟩ := successReceipt_ok hreceipt
  refine ⟨t₁ ++ (t₂ ++ t₃), again, last, rest, tree₂, identities, by simp, ?_⟩
  refine ⟨hreads, hreads₁, hfinds, hleft, fun one hone => ?_, ?_, ?_, ?_, ?_⟩
  · obtain ⟨entry, hentry, hsame⟩ := List.mem_map.mp (hperm.symm.subset
      (List.mem_map.mpr ⟨one, hone, rfl⟩))
    simp only [Prod.mk.injEq] at hsame
    rw [← hsame.1, ← hsame.2.1, ← hsame.2.2]
    exact (hmade entry hentry).1.mono (List.sublist_append_left t₁ _)
  · have hbytes := hperm.map fun triple => (triple.1.bytes, triple.2)
    rw [List.map_map, List.map_map] at hbytes
    rw [hlisted, List.map_map]
    exact hbytes
  · rw [hlisted, List.map_map]
    refine List.pairwise_map.mpr ((List.pairwise_map.mp hnodup).imp fun {a b} hne hsame => hne ?_)
    exact TreePath.bytes_injective a.nonempty b.nonempty (congrArg RelativePath.asBytes hsame)
  · have hcount := countFiles_facts blake3 tree₂.entries [] 0
    rw [Nat.zero_add] at hcount
    have hregular : sourceAfter.manifest.regularFiles = _ := hscanned.regularFiles
    rw [hfiles, hregular, hscanned.entries, ← hcount]
    rfl
  · have hcount := countBytes_facts blake3 tree₂.entries [] 0
    rw [Nat.zero_add] at hcount
    have hlogical : sourceAfter.manifest.logicalBytes = _ := hscanned.logicalBytes
    rw [hbytes, hlogical, hscanned.entries, ← hcount]
    rfl

/-- An attempt that succeeds has bound its directories and then run to its end.  A run that fails
while it binds or afterwards ends in a failure, so one that succeeds has done both. -/
theorem materialize_cases
    (h : Traces (materialize blake3 frames request plan backend) t (.ok receipt)) :
    ∃ paths source t₁ t₂, t = t₁ ++ t₂ ∧
      Traces (bindPaths blake3 frames request plan backend) t₁ (.ok (paths, source)) ∧
      Traces (materializeBound blake3 frames request plan backend paths source
        (.bound blake3 source)) t₂ (.ok receipt) := by
  unfold materialize at h
  obtain ⟨bound, t₁, t₂, rfl, hbind, h₁⟩ := traces_bind_ok.mp h
  obtain ⟨bound, he, hbind⟩ := traces_attempt.mp hbind
  cases he
  cases bound with
  | error error =>
    obtain ⟨elapsed, failure, -, he, -⟩ := failAttempt_receipt h₁
    cases he
  | ok bound =>
    obtain ⟨paths, source⟩ := bound
    obtain ⟨attempted, t₃, t₄, rfl, hwalk, h₂⟩ := traces_bind_ok.mp h₁
    obtain ⟨attempted, he, hwalk⟩ := traces_attempt.mp hwalk
    cases he
    cases attempted with
    | ok done =>
      obtain ⟨rfl, he⟩ := traces_pure.mp h₂
      cases he
      exact ⟨paths, source, t₁, t₃, by simp, hbind, hwalk⟩
    | error failed =>
      obtain ⟨context, t₅, _, rfl, -, h₃⟩ := traces_bind_ok.mp h₂
      obtain ⟨rollback, t₆, _, rfl, -, h₄⟩ := traces_bind_ok.mp h₃
      obtain ⟨elapsed, failure, -, he, -⟩ := failAttempt_receipt h₄
      cases he

end Run

/-- **A materialization that succeeds has copied the source tree**, in either mode: the target
the last scan found is the tree the source showed throughout, the attempt made every entry of
it, and the receipt lists each once and counts the regular files and their bytes. -/
theorem materialize_copies (blake3 : List UInt8 → TreeDigest) (frames : ℕ)
    (request : MaterializeRequest) (plan : MaterializationPlan) (backend : Backend)
    {t : List FsExchange} {receipt : MaterializationReceipt}
    (h : Traces (materialize blake3 frames request plan backend) t (.ok receipt))
    (honce : ListsOnce t) (happart : TellsApart blake3 (textsRead t)) :
    ∃ paths before first copying again last rest tree identities,
      t = before ++ (first ++ (copying ++ (again ++ (last ++ rest)))) ∧
        (∃ report, Ran (BoundPaths.open request report) (.ok paths) before) ∧
        Copied paths receipt first copying again last rest tree identities := by
  obtain ⟨paths, source, t₁, t₂, rfl, hbind, hbound⟩ := materialize_cases h
  obtain ⟨before, first, rfl, hopened, hfirst⟩ := bindPaths_scans hbind
  have happart' : TellsApart blake3 (textsRead (first ++ t₂)) := by
    have hsub : (first ++ t₂).Sublist (before ++ first ++ t₂) :=
      List.IsSuffix.sublist ⟨before, by simp⟩
    have hread := (hsub.filterMap textRead?).subset
    exact fun a ha b hb => happart a (hread ha) b (hread hb)
  obtain ⟨copying, again, last, rest, tree, identities, rfl, hcopied⟩ :=
    materializeBound_copied rfl hfirst hbound (honce.sublist (List.sublist_append_right _ t₂))
      happart'
  exact ⟨paths, before, first, copying, again, last, rest, tree, identities, by simp, hopened,
    hcopied⟩

/-! ### A clone of one file

A directory with one file is cloned.  The answers of the sample world are computed, the run
succeeds, and the theorem is applied to it. -/

/-- The listings of the sample have no name twice. -/
theorem nodup_copyListing (writes : ℕ) (fd : Fd) :
    ((copyListing writes fd).filterMap DirEntry.name?).Nodup := by
  unfold copyListing
  split <;> decide

/-- The only text that the sample shows is that of its file. -/
theorem textRead_copyAnswer {exchange : FsExchange} {writes writes' : ℕ} {text : List UInt8}
    (h : copyAnswer writes exchange.op = some (exchange.result, writes'))
    (hread : textRead? exchange = some text) : text = [1, 2, 3] := by
  unfold textRead? at hread
  split at hread
  · cases hread
    cases h
    rfl
  · cases h
  · cases hread

/-- The sample copy returns a receipt, in the run with these answers. -/
theorem copy_succeeds :
    ((answered copyAnswer (materialize padded 2 copyRequest copyPlan .cow) 0).any fun run =>
      run.2.toBool) = true := by
  decide +kernel

/-- The clone of a directory with one file: there is a run that succeeds, and it has copied the
tree as the theorem says. -/
theorem materialize_copies_file : ∃ t receipt,
    Traces (materialize padded 2 copyRequest copyPlan .cow) t (.ok receipt) ∧
      ∃ paths before first copying again last rest tree identities,
        t = before ++ (first ++ (copying ++ (again ++ (last ++ rest)))) ∧
          (∃ report, Ran (BoundPaths.open copyRequest report) (.ok paths) before) ∧
          Copied paths receipt first copying again last rest tree identities := by
  obtain ⟨⟨t, outcome⟩, hrun, hok⟩ := (Option.any_eq_true _ _).mp copy_succeeds
  obtain ⟨htraces, hanswers⟩ := traces_answered hrun
  cases outcome with
  | error failure => cases hok
  | ok receipt =>
    refine ⟨t, receipt, htraces,
      materialize_copies padded 2 copyRequest copyPlan .cow htraces ?_ ?_⟩
    · intro fd listed hmem
      obtain ⟨writes, writes', hanswer⟩ := hanswers _ hmem
      cases hanswer
      exact nodup_copyListing writes fd
    · have htext : ∀ text ∈ textsRead t, text = [1, 2, 3] := by
        intro text hmem
        obtain ⟨exchange, hexchange, hread⟩ := List.mem_filterMap.mp hmem
        obtain ⟨writes, writes', hanswer⟩ := hanswers exchange hexchange
        exact textRead_copyAnswer hanswer hread
      intro a ha b hb _
      rw [htext a ha, htext b hb]

end Btrfs
end ThinWorkspace
