/-
# What the manifests of both platforms share

Source: `TreeManifest` of `crates/thinws-adapter-linux/src/tree.rs` and of
`crates/thinws-adapter-macos/src/materializer.rs`.

The two adapters write their manifests in types of their own, but compare and hash them
alike.  A `ManifestFormat` is what they have in common: the parts of a manifest, the fields
of an entry that are hashed, and the laws that tie `matches_promised` and `digest` to them.
Everything a manifest tells of its tree is proved here once for both.

A scan only ever appends entries and counts the files among them (`Extends`), so the counters
of its manifest follow from the entries (`Scanned`).  The transcript determines the entries
(`Scanned.sameTree_of_transcript`), and where the hash tells the texts of two trees apart, the
manifests match just when the trees agree, in whatever order they were listed
(`Scanned.identifies`).
-/

import ThinWorkspace.Btrfs.Transcript
import ThinWorkspace.Lib.Lexicographic

namespace ThinWorkspace
namespace Btrfs

open ThinWorkspace.Core

/-- How one adapter writes its manifests.  `M` is its `TreeManifest` and `E` its
`ManifestEntry`; `countOne` is the step of its counter of regular files, which saturates on
Linux and is a plain sum on macOS. -/
structure ManifestFormat (M E : Type) where
  rootMode : M → UInt32
  rootMtime : M → ℤ × ℤ
  entries : M → List E
  regularFiles : M → UInt64
  logicalBytes : M → UInt64
  fields : E → EntryFields
  countOne : UInt64 → UInt64
  matchesPromised : M → M → Bool
  digest : (List UInt8 → TreeDigest) → M → TreeDigest
  fields_injective : Function.Injective fields
  matches_iff : ∀ manifest source, matchesPromised manifest source = true ↔
    rootMode manifest = rootMode source ∧ rootMtime manifest = rootMtime source ∧
      entries manifest = entries source ∧ regularFiles manifest = regularFiles source ∧
      logicalBytes manifest = logicalBytes source
  digest_eq : ∀ hash manifest, digest hash manifest =
    hash (manifestBytes (rootMode manifest) (rootMtime manifest) ((entries manifest).map fields))

namespace ManifestFormat

variable {M E : Type} (format : ManifestFormat M E)

/-- What `TreeManifest::digest` hashes: the tag of the format, the mode and the time of the
root, and the fields of every entry in the order of the scan. -/
def transcript (manifest : M) : List UInt8 :=
  manifestBytes (format.rootMode manifest) (format.rootMtime manifest)
    ((format.entries manifest).map format.fields)

/-- The root and the entries two manifests agree in.  The counters are left out: a scan
derives both from the entries. -/
structure SameTree (manifest other : M) : Prop where
  rootMode : format.rootMode manifest = format.rootMode other
  rootMtime : format.rootMtime manifest = format.rootMtime other
  entries : format.entries manifest = format.entries other

/-- The manifest has the widths of the source: a path is shorter than `2^64` bytes and a time
is a pair of `i64`. -/
structure Fits (manifest : M) : Prop where
  rootMtime : FitsTime (format.rootMtime manifest)
  entries : ∀ entry ∈ format.entries manifest,
    FitsEntry (format.fields entry).path (format.fields entry).mtime

/-! ### How a scan builds a manifest

A scan appends the fields of each entry, and counts the regular files as it goes.  `Extends`
describes a stretch of a scan, and composes. -/

/-- The counter of regular files after these entries; a regular file has the tag 2. -/
def countFiles (start : UInt64) (added : List EntryFields) : UInt64 :=
  added.foldl (fun count fields => if fields.tag = 2 then format.countOne count else count) start

/-- The sum of the lengths of the regular files among these entries. -/
def countBytes (start : UInt64) (added : List EntryFields) : UInt64 :=
  added.foldl (fun count fields =>
    if fields.tag = 2 then saturatingAdd count fields.length else count) start

/-- The manifest goes on with entries that have these fields, and counts the files among
them. -/
structure Extends (before after : M) (added : List EntryFields) : Prop where
  rootMode : format.rootMode after = format.rootMode before
  rootMtime : format.rootMtime after = format.rootMtime before
  entries : (format.entries after).map format.fields =
    (format.entries before).map format.fields ++ added
  regularFiles : format.regularFiles after = format.countFiles (format.regularFiles before) added
  logicalBytes : format.logicalBytes after = countBytes (format.logicalBytes before) added

variable {format}

/-- A manifest extends itself by nothing. -/
theorem Extends.refl (manifest : M) : format.Extends manifest manifest [] :=
  ⟨rfl, rfl, (List.append_nil _).symm, rfl, rfl⟩

/-- What extends an extension extends by both. -/
theorem Extends.trans {first second third : M} {added added' : List EntryFields}
    (h : format.Extends first second added) (h' : format.Extends second third added') :
    format.Extends first third (added ++ added') where
  rootMode := h'.rootMode.trans h.rootMode
  rootMtime := h'.rootMtime.trans h.rootMtime
  entries := by rw [h'.entries, h.entries, List.append_assoc]
  regularFiles := by
    rw [h'.regularFiles, h.regularFiles]
    exact List.foldl_append.symm
  logicalBytes := by
    rw [h'.logicalBytes, h.logicalBytes]
    exact List.foldl_append.symm

/-! ### What a manifest tells of its tree

A manifest determines the entries it was made of, so equal manifests come from trees that
agree; equal transcripts come from equal entries, and where the hash tells the texts of the
two trees apart, these from equal trees.  `Scanned.identifies` collects this for any format.
-/

variable {hash : List UInt8 → TreeDigest} {tree tree' : Tree} {manifest manifest' : M}

/-- The manifest of a scan that read this tree: the entries are the facts of the tree with
each text as its length and hash, and the counters follow from the entries. -/
structure Scanned (format : ManifestFormat M E) (hash : List UInt8 → TreeDigest) (tree : Tree)
    (manifest : M) : Prop where
  rootMode : format.rootMode manifest = tree.mode
  rootMtime : format.rootMtime manifest = tree.mtime
  entries : (format.entries manifest).map format.fields =
    (tree.entries.facts []).map (fieldsOf hash)
  regularFiles : format.regularFiles manifest =
    format.countFiles 0 ((format.entries manifest).map format.fields)
  logicalBytes : format.logicalBytes manifest =
    countBytes 0 ((format.entries manifest).map format.fields)

/-- A scan begins with the manifest of its root, which has no entry yet. -/
theorem Extends.scanned {before : M} {forest : Forest} (hempty : format.entries before = [])
    (hfiles : format.regularFiles before = 0) (hbytes : format.logicalBytes before = 0)
    (h : format.Extends before manifest ((forest.facts []).map (fieldsOf hash))) :
    format.Scanned hash ⟨format.rootMode before, format.rootMtime before, forest⟩ manifest := by
  have hentries := h.entries
  rw [hempty, List.map_nil, List.nil_append] at hentries
  refine ⟨h.rootMode, h.rootMtime, hentries, ?_, ?_⟩
  · rw [hentries, h.regularFiles, hfiles]
  · rw [hentries, h.logicalBytes, hbytes]

/-- The comparison needs no counter: both follow from the entries. -/
theorem Scanned.matches_iff (h : format.Scanned hash tree manifest)
    (h' : format.Scanned hash tree' manifest') :
    format.matchesPromised manifest manifest' = true ↔ format.SameTree manifest manifest' := by
  rw [format.matches_iff]
  constructor
  · rintro ⟨hmode, hmtime, hentries, -, -⟩
    exact ⟨hmode, hmtime, hentries⟩
  · rintro ⟨hmode, hmtime, hentries⟩
    refine ⟨hmode, hmtime, hentries, ?_, ?_⟩
    · rw [h.regularFiles, h'.regularFiles, hentries]
    · rw [h.logicalBytes, h'.logicalBytes, hentries]

/-- The manifests of two trees agree only where the trees are the same, entry by entry. -/
theorem Scanned.sameTree_iff (h : format.Scanned hash tree manifest)
    (h' : format.Scanned hash tree' manifest')
    (happart : TellsApart hash (textsOf tree ++ textsOf tree')) :
    format.SameTree manifest manifest' ↔ tree = tree' := by
  constructor
  · rintro ⟨hmode, hmtime, hentries⟩
    rw [h.rootMode, h'.rootMode] at hmode
    rw [h.rootMtime, h'.rootMtime] at hmtime
    have hfields := congrArg (List.map format.fields) hentries
    rw [h.entries, h'.entries] at hfields
    exact tree_inj happart hmode hmtime hfields
  · rintro rfl
    refine ⟨?_, ?_, ?_⟩
    · rw [h.rootMode, h'.rootMode]
    · rw [h.rootMtime, h'.rootMtime]
    · refine List.map_injective_iff.mpr format.fields_injective ?_
      rw [h.entries, h'.entries]

/-- The entries of a scan have names, so their fields have the widths a transcript needs. -/
theorem Scanned.fits_fields (h : format.Scanned hash tree manifest)
    (hfits : format.Fits manifest) :
    ∀ fields ∈ (format.entries manifest).map format.fields, fields.Fits := by
  intro fields hmem
  have hlisted := hmem
  rw [h.entries] at hlisted
  obtain ⟨fact, hfact, hpath⟩ := List.mem_map.mp hlisted
  obtain ⟨entry, hentry, rfl⟩ := List.mem_map.mp hmem
  refine ⟨?_, hfits.entries entry hentry⟩
  rw [← hpath]
  exact Forest.path_ne_nil fact hfact

/-- A transcript comes from one root and one list of entries. -/
theorem Scanned.sameTree_of_transcript (h : format.Scanned hash tree manifest)
    (h' : format.Scanned hash tree' manifest') (hfits : format.Fits manifest)
    (hfits' : format.Fits manifest')
    (heq : format.transcript manifest = format.transcript manifest') :
    format.SameTree manifest manifest' := by
  obtain ⟨hmode, hmtime, hentries⟩ := manifestBytes_inj hfits.rootMtime hfits'.rootMtime
    (h.fits_fields hfits) (h'.fits_fields hfits') heq
  exact ⟨hmode, hmtime, List.map_injective_iff.mpr format.fields_injective hentries⟩

/-- What two manifests and their digests say of the trees they were scanned from.

Equal transcripts come from equal roots and entry lists, and equal digests make the manifests
match unless the hash collides on the two transcripts.  If the hash tells the files and link
texts of the two trees apart, the manifests match just where the listings read the same,
and, since no directory names an entry twice, just where the trees have the same facts,
whatever the order in which their directories were listed. -/
structure Identifies (format : ManifestFormat M E) (hash : List UInt8 → TreeDigest)
    (manifest manifest' : M) (tree tree' : Tree) : Prop where
  transcript : format.transcript manifest = format.transcript manifest' →
    format.SameTree manifest manifest'
  digests : TellsApart hash [format.transcript manifest, format.transcript manifest'] →
    format.digest hash manifest = format.digest hash manifest' →
    format.matchesPromised manifest manifest' = true
  listings : TellsApart hash (textsOf tree ++ textsOf tree') →
    (format.matchesPromised manifest manifest' = true ↔ tree = tree')
  trees : tree.Distinct → tree'.Distinct → TellsApart hash (textsOf tree ++ textsOf tree') →
    (format.matchesPromised manifest manifest' = true ↔ tree.Agrees tree')

/-- **Manifests identify their trees**, in any format.  Both scans sorted the names of every
directory by one linear order, which is what makes the order of the listings irrelevant. -/
theorem Scanned.identifies {le : FileName → FileName → Bool}
    (hle : Lib.Lexicographic.LinearLe le) (h : format.Scanned hash tree manifest)
    (h' : format.Scanned hash tree' manifest') (hfits : format.Fits manifest)
    (hfits' : format.Fits manifest') (hsorted : tree.entries.Each fun a b => le a b = true)
    (hsorted' : tree'.entries.Each fun a b => le a b = true) :
    format.Identifies hash manifest manifest' tree tree' where
  transcript := h.sameTree_of_transcript h' hfits hfits'
  digests := by
    intro happart hdigest
    rw [format.digest_eq, format.digest_eq] at hdigest
    rw [h.matches_iff h']
    refine h.sameTree_of_transcript h' hfits hfits' ?_
    exact happart _ (by simp [transcript]) _ (by simp [transcript]) hdigest
  listings := fun happart => (h.matches_iff h').trans (h.sameTree_iff h' happart)
  trees := by
    intro hdistinct hdistinct' happart
    -- sorted and without repetition, the names of a directory increase strictly
    have hasymm : ∀ a b, le a b = true ∧ a ≠ b → ¬(le b a = true ∧ b ≠ a) :=
      fun a b hab hba => hab.2 (hle.antisymm a b hab.1 hba.1)
    have hagrees := Tree.agrees_iff hasymm (hsorted.and hdistinct) (hsorted'.and hdistinct')
    rw [hagrees]
    exact (h.matches_iff h').trans (h.sameTree_iff h' happart)

end ManifestFormat
end Btrfs
end ThinWorkspace
