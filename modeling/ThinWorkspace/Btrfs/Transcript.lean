/-
# What a manifest digest hashes

Source: `crates/thinws-adapter-linux/src/tree.rs`, `TreeManifest::digest`,
`update_bytes` and `update_time`; `crates/thinws-adapter-macos/src/materializer.rs`
hashes the same bytes.

Every field of an entry is a word of fixed width, a text after its length or an
option behind its tag, so an entry can be read off the front of any transcript
(`delimited_hashed`), and the transcript of a manifest determines its root and its
entries (`manifestBytes_inj`).  The widths are those of the source: a length is a `usize`
below `2^64` and a time is a pair of `i64`.
-/

import ThinWorkspace.Btrfs.Tree
import ThinWorkspace.Core.Forest
import ThinWorkspace.Lib.Transcript

namespace ThinWorkspace
namespace Btrfs

open ThinWorkspace.Core Lib
open Lib.Transcript (Delimited delimited_of_length delimited_symbol)

/-! ### Words

A number of fixed width is read off the front of a text, and a text behind its length too.
The widths are those of the source, so the lengths and times that occur must fit. -/

/-- A number is written in as many bytes as asked for. -/
theorem length_leBytes (count n : ℕ) : (leBytes count n).length = count := by
  induction count generalizing n with
  | zero => rfl
  | succ count ih => simp [leBytes, ih]

/-- A word determines the number in it, as long as the number fits into the word. -/
theorem leBytes_inj {count n m : ℕ} (hn : n < 256 ^ count) (hm : m < 256 ^ count)
    (h : leBytes count n = leBytes count m) : n = m := by
  induction count generalizing n m with
  | zero =>
    rw [Nat.pow_zero] at hn hm
    omega
  | succ count ih =>
    obtain ⟨hlow, hhigh⟩ := List.cons.inj h
    rw [Nat.pow_succ'] at hn hm
    have hdiv : n / 256 = m / 256 := ih (by omega) (by omega) hhigh
    have hmod : n % 256 = m % 256 := by
      have hbyte := congrArg UInt8.toNat hlow
      simpa using hbyte
    omega

/-- A number that fits in its bytes can be read off the front. -/
theorem delimited_leBytes (count : ℕ) : Delimited (· < 256 ^ count) (leBytes count) :=
  delimited_of_length (fun _ _ => length_leBytes _ _) fun _ _ => leBytes_inj

/-- A `usize` length: every vector of the program is shorter than that. -/
def InMemory (length : ℕ) : Prop := length < 18446744073709551616

instance (length : ℕ) : Decidable (InMemory length) := Nat.decLt _ _

/-- A count can be read off the front, as it is a word of fixed length. -/
theorem delimited_count : Delimited InMemory (leBytes 8) :=
  fun _ _ _ _ ha hb h => delimited_leBytes 8 ha hb h

/-- A `u64` can be read off the front, as it is eight bytes. -/
theorem delimited_u64 : Delimited (fun _ => True) (fun n : UInt64 => leBytes 8 n.toNat) :=
  delimited_count.comap (fun n _ => n.toNat_lt) fun _ _ _ _ => UInt64.toNat_inj.mp

/-- A `u32` can be read off the front, as it is four bytes. -/
theorem delimited_u32 : Delimited (fun _ => True) (fun n : UInt32 => leBytes 4 n.toNat) :=
  (delimited_leBytes 4).comap (fun n _ => n.toNat_lt) fun _ _ _ _ => UInt32.toNat_inj.mp

/-- Bytes behind their length can be read off the front. -/
theorem delimited_lengthAndBytes :
    Delimited (fun bytes : List UInt8 => InMemory bytes.length) lengthAndBytes :=
  delimited_count.lengthPrefixed

/-- An option of a manifest can be read off the front, by the byte that says whether there is a
value. -/
theorem delimited_optionBytes {α : Type} {S : α → Prop} {code : α → List UInt8}
    (h : Delimited S code) :
    Delimited (fun value : Option α => ∀ a ∈ value, S a) (optionBytes code) := by
  have hoptional : optionBytes code = Transcript.optional 0 1 code := by
    funext value
    cases value <;> rfl
  rw [hoptional]
  exact Delimited.optional (by decide) h

/-- A value of an `i64`, so that its eight bytes tell it apart from every other one. -/
def FitsI64 (n : ℤ) : Prop := -9223372036854775808 ≤ n ∧ n < 9223372036854775808

/-- An `i64` can be read off the front, by its residue. -/
theorem delimited_i64 :
    Delimited FitsI64 (fun n : ℤ => leBytes 8 (n % 18446744073709551616).toNat) := by
  refine delimited_count.comap (fun n _ => ?_) fun n m hn hm h => ?_
  · simp only [InMemory]
    omega
  · obtain ⟨hn₁, hn₂⟩ := hn
    obtain ⟨hm₁, hm₂⟩ := hm
    omega

/-- A time of two `i64`, for its seconds and its nanoseconds. -/
def FitsTime (time : ℤ × ℤ) : Prop := FitsI64 time.1 ∧ FitsI64 time.2

/-- A time can be read off the front, as it is two words of fixed length. -/
theorem delimited_timeBytes : Delimited FitsTime timeBytes :=
  delimited_i64.append delimited_i64

/-- A digest can be read off the front, as it has a fixed length. -/
theorem delimited_digest : Delimited (fun _ => True) (fun digest : TreeDigest => digest.bytes) := by
  refine delimited_of_length (fun digest _ => digest.length_bytes) fun a b _ _ h => ?_
  cases a
  cases b
  simpa using h

/-! ### Entries and manifests

An entry is delimited because each of its parts is, and a manifest is delimited by its
version tag and the entries to the end. -/

/-- The fields of an entry, with the tag of its kind. -/
structure EntryFields where
  path : TreePath
  tag : UInt8
  mode : Option UInt32
  mtime : Option (ℤ × ℤ)
  length : UInt64
  digest : Option TreeDigest

/-- What is hashed of one entry: the path behind its length, the kind, and the optional parts each
behind a mark. -/
def EntryFields.hashed (fields : EntryFields) : List UInt8 :=
  lengthAndBytes fields.path.bytes ++ [fields.tag] ++
    optionBytes (fun mode => leBytes 4 mode.toNat) fields.mode ++
    optionBytes timeBytes fields.mtime ++ leBytes 8 fields.length.toNat ++
    optionBytes (·.bytes) fields.digest

/-- A path and a time have the widths of the source. -/
structure FitsEntry (path : TreePath) (mtime : Option (ℤ × ℤ)) : Prop where
  path : InMemory path.bytes.length
  mtime : ∀ time ∈ mtime, FitsTime time

/-- The fields of an entry below the root, of the widths of the source. -/
structure EntryFields.Fits (fields : EntryFields) : Prop where
  named : fields.path ≠ []
  entry : FitsEntry fields.path fields.mtime

/-- An entry can be read off the front of any transcript. -/
theorem delimited_hashed : Delimited EntryFields.Fits EntryFields.hashed := by
  intro a b s t ha hb h
  simp only [EntryFields.hashed, List.append_assoc] at h
  obtain ⟨hpath, h⟩ := delimited_lengthAndBytes ha.entry.path hb.entry.path h
  obtain ⟨htag, h⟩ := delimited_symbol (fun _ _ => id) trivial trivial h
  obtain ⟨hmode, h⟩ := delimited_optionBytes delimited_u32 (fun _ _ => trivial)
    (fun _ _ => trivial) h
  obtain ⟨hmtime, h⟩ := delimited_optionBytes delimited_timeBytes ha.entry.mtime hb.entry.mtime h
  obtain ⟨hlength, h⟩ := delimited_u64 trivial trivial h
  obtain ⟨hdigest, hrest⟩ := delimited_optionBytes delimited_digest (fun _ _ => trivial)
    (fun _ _ => trivial) h
  refine ⟨?_, hrest⟩
  have hnames := TreePath.bytes_injective ha.named hb.named hpath
  cases a
  cases b
  simp only at hnames htag hmode hmtime hlength hdigest
  rw [hnames, htag, hmode, hmtime, hlength, hdigest]

/-- The bytes of an entry are never empty, so that a list of entries ends where its bytes do. -/
theorem hashed_ne_nil (fields : EntryFields) : fields.hashed ≠ [] := by
  intro h
  have hlength := congrArg List.length h
  simp [EntryFields.hashed] at hlength

/-- What either adapter hashes of a manifest: a version tag, the root, and the entries one after
the other. -/
def manifestBytes (rootMode : UInt32) (rootMtime : ℤ × ℤ) (entries : List EntryFields) :
    List UInt8 :=
  asBytes "thinws-tree-manifest-v1" ++ [0] ++ leBytes 4 rootMode.toNat ++ timeBytes rootMtime ++
    entries.flatMap EntryFields.hashed

/-- A transcript comes from one root and one list of entries. -/
theorem manifestBytes_inj {rootMode rootMode' : UInt32} {rootMtime rootMtime' : ℤ × ℤ}
    {entries entries' : List EntryFields} (hroot : FitsTime rootMtime)
    (hroot' : FitsTime rootMtime') (hentries : ∀ fields ∈ entries, fields.Fits)
    (hentries' : ∀ fields ∈ entries', fields.Fits)
    (h : manifestBytes rootMode rootMtime entries = manifestBytes rootMode' rootMtime' entries') :
    rootMode = rootMode' ∧ rootMtime = rootMtime' ∧ entries = entries' := by
  simp only [manifestBytes, List.append_assoc, List.append_cancel_left_eq] at h
  obtain ⟨hmode, h⟩ := delimited_u32 trivial trivial h
  obtain ⟨hmtime, h⟩ := delimited_timeBytes hroot hroot' h
  exact ⟨hmode, hmtime, delimited_hashed.flatMap_inj hashed_ne_nil hentries hentries' h⟩

/-! ### The entries of a tree

A fact of a tree has its text hashed.  Where the hash tells the texts of two trees apart,
equal fields come from equal facts. -/

variable {hash : List UInt8 → TreeDigest}

/-- The tag of a kind that a scan accepts. -/
def factTag : MaterializedEntryKind → UInt8
  | .directory => 1
  | .regularFile => 2
  | .symbolicLink => 3

/-- The fields that either adapter hashes of a fact. -/
def fieldsOf (hash : List UInt8 → TreeDigest) (fact : EntryFact) : EntryFields where
  path := fact.path
  tag := factTag fact.kind
  mode := fact.mode
  mtime := fact.mtime
  length := (fact.bytes.map fun bytes => saturate bytes.length).getD 0
  digest := fact.bytes.map hash

/-- The texts a scan hashed, of its files and of its links. -/
def textsOf (tree : Tree) : List (List UInt8) := (tree.entries.facts []).filterMap (·.bytes)

/-- The hash tells these texts apart: what is asked of it is limited to the texts that occur. -/
def TellsApart (hash : List UInt8 → TreeDigest) (texts : List (List UInt8)) : Prop :=
  ∀ a ∈ texts, ∀ b ∈ texts, hash a = hash b → a = b

/-- Different kinds of entries have different tags, so the tag tells the kind. -/
theorem factTag_inj {a b : MaterializedEntryKind} (h : factTag a = factTag b) : a = b := by
  cases a <;> cases b <;> first | rfl | (revert h; decide)

/-- Where the hash tells the texts apart, the fields determine their fact. -/
theorem fieldsOf_inj {a b : EntryFact} {texts : List (List UInt8)} (happart : TellsApart hash texts)
    (ha : ∀ bytes ∈ a.bytes, bytes ∈ texts) (hb : ∀ bytes ∈ b.bytes, bytes ∈ texts)
    (h : fieldsOf hash a = fieldsOf hash b) : a = b := by
  simp only [fieldsOf, EntryFields.mk.injEq] at h
  obtain ⟨hpath, htag, hmode, hmtime, -, hdigest⟩ := h
  have hkind := factTag_inj htag
  have hbytes : a.bytes = b.bytes := by
    cases hbytes : a.bytes with
    | none =>
      rw [hbytes] at hdigest
      exact (Option.map_eq_none_iff.mp hdigest.symm).symm
    | some text =>
      rw [hbytes, Option.map_some] at hdigest
      obtain ⟨text', htext', hsame⟩ := Option.map_eq_some_iff.mp hdigest.symm
      rw [htext', happart text' (hb _ htext') text (ha _ hbytes) hsame]
  cases a
  cases b
  simp only at hpath hkind hmode hmtime hbytes
  rw [hpath, hkind, hmode, hmtime, hbytes]

/-- Where the hash tells the texts apart, the entries determine the facts. -/
theorem map_fieldsOf_inj {facts facts' : List EntryFact} {texts : List (List UInt8)}
    (happart : TellsApart hash texts)
    (hfacts : ∀ fact ∈ facts, ∀ bytes ∈ fact.bytes, bytes ∈ texts)
    (hfacts' : ∀ fact ∈ facts', ∀ bytes ∈ fact.bytes, bytes ∈ texts)
    (h : facts.map (fieldsOf hash) = facts'.map (fieldsOf hash)) : facts = facts' := by
  induction facts generalizing facts' with
  | nil => exact (List.map_eq_nil_iff.mp h.symm).symm
  | cons fact facts ih =>
    cases facts' with
    | nil => cases h
    | cons fact' facts' =>
      rw [List.forall_mem_cons] at hfacts hfacts'
      obtain ⟨hhead, htail⟩ := List.cons.inj h
      rw [fieldsOf_inj happart hfacts.1 hfacts'.1 hhead, ih hfacts.2 hfacts'.2 htail]

/-- The bytes of an entry's fact are among the texts of its tree. -/
theorem mem_textsOf {tree : Tree} {fact : EntryFact} (hmem : fact ∈ tree.entries.facts [])
    {bytes : List UInt8} (hbytes : bytes ∈ fact.bytes) : bytes ∈ textsOf tree :=
  List.mem_filterMap.mpr ⟨fact, hmem, hbytes⟩

/-- Where the hash tells the texts of two trees apart, a tree is its root and the fields of
its entries. -/
theorem tree_inj {tree tree' : Tree} (happart : TellsApart hash (textsOf tree ++ textsOf tree'))
    (hmode : tree.mode = tree'.mode) (hmtime : tree.mtime = tree'.mtime)
    (hfields : (tree.entries.facts []).map (fieldsOf hash) =
      (tree'.entries.facts []).map (fieldsOf hash)) : tree = tree' := by
  have hfacts := map_fieldsOf_inj happart
    (fun fact hmem bytes hbytes => List.mem_append_left _ (mem_textsOf hmem hbytes))
    (fun fact hmem bytes hbytes => List.mem_append_right _ (mem_textsOf hmem hbytes)) hfields
  cases tree
  cases tree'
  simp only at hmode hmtime hfacts
  rw [hmode, hmtime, Forest.facts_inj hfacts]

end Btrfs
end ThinWorkspace
