/-
# Names of directory entries

The names a directory enumeration yields, the paths they make below a held root, and
the names with numbers that the adapters generate: `numbered_injective` reads the
numbers back.  The generated names are those of `stage_and_publish` and
`detach_to_trash` in `crates/thinws-adapter-linux/src/materializer.rs`.
-/

import ThinWorkspace.Core.Materialization

namespace ThinWorkspace
namespace Core

open Lib

/-- A name of a directory entry other than `.` and `..`: the bytes of one normal component. -/
@[ext] structure FileName where
  bytes : List UInt8
  normal : AbsolutePath.Normal bytes
deriving DecidableEq

/-- A path below a held root: the names on the way, none for the root itself. -/
abbrev TreePath := List FileName

/-- The names of a path with a `/` between two. -/
def TreePath.bytes (path : TreePath) : List UInt8 := [slash].intercalate (path.map (·.bytes))

/-- The names of a path are read back from its bytes. -/
theorem TreePath.splitOn_bytes {path : TreePath} (h : path ≠ []) :
    path.bytes.splitOn slash = path.map (·.bytes) := by
  refine List.splitOn_intercalate slash (fun s hs => ?_) (by simpa using h)
  obtain ⟨name, -, rfl⟩ := List.mem_map.mp hs
  exact name.normal.no_slash

/-- A path of at least one name is its bytes. -/
theorem TreePath.bytes_injective {path path' : TreePath} (h : path ≠ []) (h' : path' ≠ [])
    (he : path.bytes = path'.bytes) : path = path' := by
  have hmap : path.map (·.bytes) = path'.map (·.bytes) := by
    rw [← splitOn_bytes h, he, splitOn_bytes h']
  refine List.map_injective_iff.mpr (fun a b hab => ?_) hmap
  obtain ⟨_, _⟩ := a
  obtain ⟨_, _⟩ := b
  simpa using hab

/-- The bytes of a path are those of its names, and the slashes between them. -/
theorem TreePath.mem_bytes {path : TreePath} {b : UInt8} (h : b ∈ path.bytes) :
    b = slash ∨ ∃ part ∈ path, b ∈ part.bytes := by
  by_cases hpath : path = []
  · rw [hpath] at h
    cases h
  · have hjoin : b ∈ Segments.join slash (path.map (·.bytes)) := by
      rw [Segments.join_cons_eq (by simpa using hpath)]
      exact List.mem_cons_of_mem _ h
    obtain ⟨s, hs, hb⟩ := List.mem_flatMap.mp hjoin
    obtain ⟨part, hpart, rfl⟩ := List.mem_map.mp hs
    exact (List.mem_cons.mp hb).imp id fun hb => ⟨part, hpart, hb⟩

/-- A path of at least one name is one a receipt may have. -/
theorem TreePath.valid {path : TreePath} (h : path ≠ []) :
    validateRelativePath path.bytes = true := by
  have hsplit := splitOn_bytes h
  obtain ⟨name, rest, rfl⟩ := List.exists_cons_of_ne_nil h
  have hnil : TreePath.bytes (name :: rest) ≠ [] := by
    intro he
    rw [he, List.splitOn_nil, List.map_cons] at hsplit
    exact name.normal.ne_nil (List.cons.inj hsplit).1.symm
  have hhead : (TreePath.bytes (name :: rest)).head? ≠ some slash := by
    intro he
    obtain ⟨tail, htail⟩ := List.head?_eq_some_iff.mp he
    rw [htail, List.splitOn_cons_eq_if_modifyHead, if_pos (beq_self_eq_true slash),
      List.map_cons] at hsplit
    exact name.normal.ne_nil (List.cons.inj hsplit).1.symm
  have hnul : (0 : UInt8) ∉ TreePath.bytes (name :: rest) := by
    intro h0
    rcases mem_bytes h0 with h0 | ⟨part, -, h0⟩
    · exact absurd h0 (by decide)
    · exact part.normal.no_nul h0
  have hspecial :
      ((TreePath.bytes (name :: rest)).splitOn slash).any isSpecialComponent = false := by
    rw [hsplit, List.any_eq_false]
    intro s hs
    obtain ⟨part, -, rfl⟩ := List.mem_map.mp hs
    simpa using part.normal.not_special
  unfold validateRelativePath
  rw [hspecial]
  simp [hnil, hhead, hnul]

/-- The path as a receipt names it: the names with a separator between them. -/
def TreePath.relative (path : TreePath) (h : path ≠ []) : RelativePath := ⟨path.bytes, path.valid h⟩

/-- A relative path without a slash is a single name. -/
theorem RelativePath.normal {path : RelativePath} (h : slash ∉ path.asBytes) :
    AbsolutePath.Normal path.asBytes := by
  have hvalid := path.valid
  have hsplit : path.asBytes.splitOn slash = [path.asBytes] := by
    have hno : ∀ s ∈ [path.asBytes], slash ∉ s := by simpa using h
    simpa using List.splitOn_intercalate slash hno (List.cons_ne_nil _ _)
  unfold validateRelativePath at hvalid
  rw [hsplit] at hvalid
  simp only [Bool.and_eq_true, Bool.not_eq_true', Bool.or_eq_false_iff] at hvalid
  refine ⟨h, ?_, ?_⟩
  · have hnul := hvalid.1.2
    simpa using hnul
  · have hspecial := hvalid.2
    simpa using hspecial

/-- A path of one name, as that name. -/
def RelativePath.name? (path : RelativePath) : Option FileName :=
  if h : slash ∉ path.asBytes then some ⟨path.asBytes, path.normal h⟩ else none

/-! ### Generated names

The adapters make up names from a stem and numbers: a process, a counter, a place in a list.
Two such names are the same only with the same numbers (`numbered_injective`), since a
decimal number has no hyphen and is written in one way, and each is a component that a path
may have (`normal_numbered`). -/

/-- A number in decimal, as it stands in the name of a staged object. -/
def decimal (n : ℕ) : List UInt8 := asBytes n.repr

/-- The byte `-`, which separates the parts of such a name. -/
abbrev hyphen : UInt8 := 45

/-- A stem with numbers, a `-` before each, so that the numbers can be read back from the name. -/
def numbered (stem : List UInt8) (numbers : List ℕ) : List UInt8 :=
  stem ++ Segments.join hyphen (numbers.map decimal)

/-- A decimal number consists of digits. -/
theorem mem_decimal {b : UInt8} {n : ℕ} (h : b ∈ decimal n) : 48 ≤ b.toNat ∧ b.toNat ≤ 57 := by
  unfold decimal at h
  rw [Nat.repr_eq_ofList_toDigits, asBytes_ofList, List.mem_flatMap] at h
  obtain ⟨c, hc, hb⟩ := h
  have hrange := Nat.isDigit_of_mem_toDigits (by decide) (by decide) hc
  simp only [Char.isDigit, Bool.and_eq_true, decide_eq_true_eq] at hrange
  have hlow : 48 ≤ c.val.toNat := hrange.1
  have hhigh : c.val.toNat ≤ 57 := hrange.2
  have hsize : c.utf8Size = 1 := by
    rw [Char.utf8Size_eq_one_iff, UInt32.le_iff_toNat_le]
    exact hhigh.trans (by decide)
  rw [String.utf8EncodeChar_eq_singleton hsize, List.mem_singleton] at hb
  rw [hb, UInt32.toNat_toUInt8]
  omega

/-- Different numbers are written differently. -/
theorem decimal_injective : Function.Injective decimal := by
  intro a b h
  have hrepr := asBytes_text_injective h
  rw [Nat.repr_eq_ofList_toDigits, Nat.repr_eq_ofList_toDigits, String.ofList_inj] at hrepr
  rw [← Nat.ofDigitChars_ten_toDigits (n := a), hrepr, Nat.ofDigitChars_ten_toDigits]

/-- A decimal number has no hyphen. -/
theorem hyphen_notMem_decimal (n : ℕ) : hyphen ∉ decimal n := fun h => by
  have hrange := (mem_decimal h).1
  exact absurd hrange (by decide)

/-- The numbers of a generated name are read back. -/
theorem numbered_injective (stem : List UInt8) {numbers numbers' : List ℕ}
    (h : numbered stem numbers = numbered stem numbers') (hne : numbers ≠ [])
    (hne' : numbers' ≠ []) : numbers = numbers' := by
  have hjoin := List.append_cancel_left h
  have hno : ∀ (numbers : List ℕ), ∀ s ∈ numbers.map decimal, hyphen ∉ s := by
    intro numbers s hs
    obtain ⟨n, -, rfl⟩ := List.mem_map.mp hs
    exact hyphen_notMem_decimal n
  have hmap : numbers.map decimal = numbers'.map decimal := by
    rw [← Segments.splitOn_join (hno numbers) (by simpa using hne), hjoin,
      Segments.splitOn_join (hno numbers') (by simpa using hne')]
  exact List.map_injective_iff.mpr decimal_injective hmap

/-- A name whose stem is longer than `..` and has neither a `/` nor a NUL. -/
theorem normal_numbered {stem : List UInt8} (numbers : List ℕ)
    (hstem : 2 < stem.length ∧ slash ∉ stem ∧ (0 : UInt8) ∉ stem) :
    AbsolutePath.Normal (numbered stem numbers) := by
  obtain ⟨hlength, hslash, hnul⟩ := hstem
  have hjoin : ∀ b ∈ Segments.join hyphen (numbers.map decimal), b ≠ slash ∧ b ≠ 0 := by
    intro b hb
    obtain ⟨s, hs, hb⟩ := List.mem_flatMap.mp hb
    obtain ⟨n, -, rfl⟩ := List.mem_map.mp hs
    rcases List.mem_cons.mp hb with rfl | hb
    · decide
    · have hrange := (mem_decimal hb).1
      constructor
      · rintro rfl
        exact absurd hrange (by decide)
      · rintro rfl
        exact absurd hrange (by decide)
  refine ⟨?_, ?_, ?_⟩
  · rw [numbered, List.mem_append]
    exact not_or.mpr ⟨hslash, fun h => (hjoin _ h).1 rfl⟩
  · rw [numbered, List.mem_append]
    exact not_or.mpr ⟨hnul, fun h => (hjoin _ h).2 rfl⟩
  · have hlong : 2 < (numbered stem numbers).length := by
      rw [numbered, List.length_append]
      omega
    simp only [isSpecialComponent, Bool.or_eq_false_iff, beq_eq_false_iff_ne]
    refine ⟨⟨?_, ?_⟩, ?_⟩
    all_goals
      intro he
      rw [he] at hlong
      simp at hlong

end Core
end ThinWorkspace
