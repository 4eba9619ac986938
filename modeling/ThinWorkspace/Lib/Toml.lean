/-
# TOML tables

The flat tables a TOML library prints and parses, and the library itself as a
parameter.  A table a program stores and reads back is related to its text by
`ReadsBack`, the documented behaviour of a printer and a parser that belong
together.  A field is read by its key and in the width of its type, and the reading of a key
does not depend on the entries before it that have other keys.
-/

import Mathlib.Data.Int.Notation

namespace ThinWorkspace
namespace Lib

/-- A value of a flat table: a number or a text. -/
inductive Toml where
  | int (n : ℤ)
  | str (s : String)
deriving DecidableEq

/-- A table, in the order its keys are written. -/
abbrev TomlTable := List (String × Toml)

namespace TomlTable

/-- The value of a key: the first entry that has it. -/
def get? (table : TomlTable) (key : String) : Option Toml :=
  (table.find? fun entry => entry.1 == key).map (·.2)

/-- A key with a text; a number under this key counts as missing. -/
def str? (table : TomlTable) (key : String) : Option String :=
  (table.get? key).bind fun
    | .str s => some s
    | .int _ => none

/-- A key with a number of the type `u32`. -/
def u32? (table : TomlTable) (key : String) : Option UInt32 :=
  (table.get? key).bind fun
    | .int n => if 0 ≤ n ∧ n < 4294967296 then some (UInt32.ofNat n.toNat) else none
    | .str _ => none

/-- A key with a number of the type `u64`. -/
def u64? (table : TomlTable) (key : String) : Option UInt64 :=
  (table.get? key).bind fun
    | .int n => if 0 ≤ n ∧ n < 18446744073709551616 then some (UInt64.ofNat n.toNat) else none
    | .str _ => none

/-- A key with a number of the type `i64`. -/
def i64? (table : TomlTable) (key : String) : Option Int64 :=
  (table.get? key).bind fun
    | .int n =>
      if -9223372036854775808 ≤ n ∧ n < 9223372036854775808 then some (Int64.ofInt n) else none
    | .str _ => none

/-- A text that may be missing, but must not be a number. -/
def optionalStr? (table : TomlTable) (key : String) : Option (Option String) :=
  match table.get? key with
  | none => some none
  | some (.str s) => some (some s)
  | some (.int _) => none

/-- Where no key occurs twice the value of a key is the one beside it. -/
theorem get?_of_mem {table : TomlTable} (h : (table.map Prod.fst).Nodup) {key : String}
    {value : Toml} (hmem : (key, value) ∈ table) : table.get? key = some value := by
  unfold get?
  induction table with
  | nil => cases hmem
  | cons head table ih =>
    rw [List.map_cons, List.nodup_cons] at h
    rcases List.mem_cons.mp hmem with rfl | hmem
    · rw [List.find?_cons_of_pos (by simp)]
      rfl
    · have hne : head.1 ≠ key := by
        intro he
        exact h.1 (he ▸ List.mem_map_of_mem hmem)
      rw [List.find?_cons_of_neg (by simpa using hne)]
      exact ih h.2 hmem

/-- A key that does not occur has no value. -/
theorem get?_eq_none {table : TomlTable} {key : String} (h : key ∉ table.map Prod.fst) :
    table.get? key = none := by
  rw [get?, Option.map_eq_none_iff, List.find?_eq_none]
  intro entry hentry he
  exact h (List.mem_map.mpr ⟨entry, hentry, by simpa using he⟩)

/-- The text of a key that has one. -/
theorem str?_of_get? {table : TomlTable} {key s : String} (h : table.get? key = some (.str s)) :
    table.str? key = some s := by
  rw [str?, h, Option.bind_some]

/-- A `u32` that was printed is read as the `u32` it was. -/
theorem u32?_of_get? {table : TomlTable} {key : String} {n : UInt32}
    (h : table.get? key = some (.int n.toNat)) : table.u32? key = some n := by
  have hlt : n.toNat < 4294967296 := n.toNat_lt
  have hrange : (0 : ℤ) ≤ n.toNat ∧ (n.toNat : ℤ) < 4294967296 := by omega
  rw [u32?, h, Option.bind_some]
  simp only [if_pos hrange, Int.toNat_natCast, UInt32.ofNat_toNat]

/-- A `u64` that was printed is read as the `u64` it was. -/
theorem u64?_of_get? {table : TomlTable} {key : String} {n : UInt64}
    (h : table.get? key = some (.int n.toNat)) : table.u64? key = some n := by
  have hlt : n.toNat < 18446744073709551616 := n.toNat_lt
  have hrange : (0 : ℤ) ≤ n.toNat ∧ (n.toNat : ℤ) < 18446744073709551616 := by omega
  rw [u64?, h, Option.bind_some]
  simp only [if_pos hrange, Int.toNat_natCast, UInt64.ofNat_toNat]

/-- An `i64` that was printed is read as the `i64` it was. -/
theorem i64?_of_get? {table : TomlTable} {key : String} {n : Int64}
    (h : table.get? key = some (.int n.toInt)) : table.i64? key = some n := by
  have hlow : -9223372036854775808 ≤ n.toInt := n.le_toInt
  have hhigh : n.toInt < 9223372036854775808 := n.toInt_lt
  rw [i64?, h, Option.bind_some]
  simp only [if_pos (And.intro hlow hhigh), Int64.ofInt_toInt]

/-- `deny_unknown_fields`: every key of the table is one of these. -/
def onlyKeys (table : TomlTable) (keys : List String) : Bool :=
  table.all fun entry => keys.contains entry.1

end TomlTable

/-- A TOML library, as the program uses it; printing may fail, and so may reading. -/
structure TomlLibrary where
  toText : TomlTable → Option String
  fromText : String → Option TomlTable

/-- The library reads the printed table back, which is what its documentation promises. -/
def TomlLibrary.ReadsBack (lib : TomlLibrary) (table : TomlTable) : Prop :=
  ∀ text, lib.toText table = some text → lib.fromText text = some table

end Lib
end ThinWorkspace
