/-
# SQL text functions and row statements

The parts of SQL the schema of a small keyed database needs: the text functions
`length`, `substr`, `instr`, `replace` and `GLOB` on Unicode text, and the
row-by-row statements `UPDATE … WHERE` and `DELETE … WHERE`, each of which is
refused as a whole when one of the rows it touches is refused.

The lemmas say what the text functions find (`contains_singleton`, `glob_noneOf`,
`substr_eq_singleton`) and what a statement leaves of the rows: `mem_updateWhere`,
`map_updateWhere` for a column it does not assign, `mem_deleteWhere`.
-/

import Mathlib.Data.List.Nodup
import Mathlib.Data.List.Infix
import Mathlib.Data.List.TakeWhile

namespace ThinWorkspace
namespace Lib
namespace Sql

/-! ### Text functions

The functions are those of the database on Unicode text, as its documentation has them, with
the one oddity that a `CHECK` can depend on: `length` stops at a NUL, while the others do
not. -/

/-- `length(s)`: the characters before the first NUL. -/
def length (s : String) : ℕ :=
  (s.toList.takeWhile (· ≠ Char.ofNat 0)).length

/-- `substr(s, i, n)` for `1 ≤ i`: positions count from one. -/
def substr (s : String) (i n : ℕ) : String :=
  String.ofList ((s.toList.drop (i - 1)).take n)

/-- `substr(s, -1, 1)`: the last character, or nothing of an empty text. -/
def substrLast (s : String) : String :=
  String.ofList s.toList.getLast?.toList

/-- Whether `instr(s, t) <> 0`: `t` occurs in `s`. -/
def contains (s t : String) : Bool :=
  s.toList.tails.any fun suffix => t.toList.isPrefixOf suffix

/-- `replace(s, c, '')` for a single character `c`. -/
def remove (s : String) (c : Char) : String :=
  String.ofList (s.toList.filter (· ≠ c))

/-- One item of a `GLOB` pattern: anything, a character in or outside a bracket, or a character
itself. -/
inductive Glob where
  | star
  | oneOf (ranges : List (Char × Char))
  | noneOf (ranges : List (Char × Char))
  | lit (c : Char)
deriving DecidableEq

/-- Membership in a bracket expression: the character lies in one of the ranges. -/
def inRanges (ranges : List (Char × Char)) (c : Char) : Bool :=
  ranges.any fun r => r.1 ≤ c && c ≤ r.2

/-- `s GLOB pattern` on the characters of `s`. -/
def globChars : List Glob → List Char → Bool
  | [], s => s == []
  | .star :: p, s => s.tails.any (globChars p)
  | .oneOf _ :: _, [] => false
  | .oneOf rs :: p, c :: s => inRanges rs c && globChars p s
  | .noneOf _ :: _, [] => false
  | .noneOf rs :: p, c :: s => !inRanges rs c && globChars p s
  | .lit _ :: _, [] => false
  | .lit d :: p, c :: s => c == d && globChars p s

/-- `s GLOB pattern`: the whole text has to match, not a part of it. -/
def glob (s : String) (pattern : List Glob) : Bool :=
  globChars pattern s.toList

/-! ### What the text functions say

A `CHECK` is written in these functions, while a proof speaks of lists of characters.  Each
lemma translates one function, or one `GLOB` pattern of a kind that schemas use, so that no
proof unfolds the matcher. -/

/-- A text without NUL has as many characters as `length` says. -/
theorem length_eq {s : String} (h : Char.ofNat 0 ∉ s.toList) : length s = s.toList.length := by
  have hall : ∀ c ∈ s.toList, decide (c ≠ Char.ofNat 0) = true := fun c hc => by
    simpa using ne_of_mem_of_not_mem hc h
  rw [length, List.takeWhile_eq_self_iff.mpr hall]

/-- `instr` of one character finds it exactly when it is among the characters of the text. -/
theorem contains_singleton {s : String} {c : Char} :
    contains s (String.singleton c) = true ↔ c ∈ s.toList := by
  rw [contains, List.any_eq_true]
  simp only [List.mem_tails, String.toList_singleton, List.isPrefixOf_iff_prefix]
  constructor
  · rintro ⟨suffix, hsuffix, hstart⟩
    exact hsuffix.subset (hstart.subset (List.mem_singleton_self c))
  · intro hmem
    obtain ⟨before, after, hs⟩ := List.append_of_mem hmem
    exact ⟨c :: after, ⟨before, hs.symm⟩, ⟨after, rfl⟩⟩

/-- `'*'` matches every text, the empty one included. -/
theorem globChars_star (s : List Char) : globChars [.star] s = true := by
  rw [globChars, List.any_eq_true]
  exact ⟨[], (List.mem_tails _ _).mpr List.nil_suffix, rfl⟩

/-- `'*[^…]*'` matches a text with a character outside of the brackets. -/
theorem glob_noneOf {s : String} {ranges : List (Char × Char)} :
    glob s [.star, .noneOf ranges, .star] = true ↔ ∃ c ∈ s.toList, inRanges ranges c = false := by
  rw [glob, globChars, List.any_eq_true]
  simp only [List.mem_tails]
  constructor
  · rintro ⟨suffix, hsuffix, hmatch⟩
    cases suffix with
    | nil => cases hmatch
    | cons c rest =>
      have hc : inRanges ranges c = false := by
        simp only [globChars, Bool.and_eq_true, Bool.not_eq_true'] at hmatch
        exact hmatch.1
      exact ⟨c, hsuffix.subset List.mem_cons_self, hc⟩
  · rintro ⟨c, hmem, hc⟩
    obtain ⟨before, after, hs⟩ := List.append_of_mem hmem
    refine ⟨c :: after, ⟨before, hs.symm⟩, ?_⟩
    simp only [globChars, hc, Bool.not_false, Bool.true_and]
    exact globChars_star after

/-- `'[…]'` matches the texts of one character in the brackets. -/
theorem glob_oneOf {s : String} {ranges : List (Char × Char)} :
    glob s [.oneOf ranges] = true ↔ ∃ c, s.toList = [c] ∧ inRanges ranges c = true := by
  rw [glob]
  cases hs : s.toList with
  | nil => simp [globChars]
  | cons c rest =>
    simp only [globChars, Bool.and_eq_true, beq_iff_eq]
    constructor
    · rintro ⟨hc, rfl⟩
      exact ⟨c, rfl, hc⟩
    · rintro ⟨d, hd, hc⟩
      obtain ⟨rfl, rfl⟩ := List.cons.inj hd
      exact ⟨hc, rfl⟩

/-- The one character at a place of a text, counted from one as SQL does. -/
theorem substr_eq_singleton {s : String} {i : ℕ} {c : Char} :
    substr s (i + 1) 1 = String.singleton c ↔ s.toList[i]? = some c := by
  rw [substr, Nat.add_sub_cancel, ← String.toList_inj, String.toList_ofList,
    String.toList_singleton]
  cases h : s.toList.drop i with
  | nil =>
    have hlen := List.drop_eq_nil_iff.mp h
    simp [List.getElem?_eq_none hlen]
  | cons d rest =>
    have hget : s.toList[i]? = some d := by
      rw [← List.head?_drop, h, List.head?_cons]
    simp [hget]

/-- A part of a text behind a given beginning is that part of the rest. -/
theorem substr_append (p s : String) (i n : ℕ) :
    substr (p ++ s) (p.toList.length + (i + 1)) n = substr s (i + 1) n := by
  have hi : p.toList.length + (i + 1) - 1 = p.toList.length + i := rfl
  rw [substr, substr, hi, String.toList_append, Nat.add_sub_cancel, List.drop_append,
    List.drop_eq_nil_of_le (Nat.le_add_right _ _)]
  simp

/-- The beginning of a text. -/
theorem substr_one_eq {s p : String} :
    substr s 1 p.toList.length = p ↔ ∃ t, s = p ++ t := by
  rw [substr, ← String.toList_inj, String.toList_ofList, Nat.sub_self, List.drop_zero]
  constructor
  · intro h
    refine ⟨String.ofList (s.toList.drop p.toList.length), ?_⟩
    rw [← String.toList_inj, String.toList_append, String.toList_ofList]
    conv_lhs => rw [← List.take_append_drop p.toList.length s.toList, h]
  · rintro ⟨t, rfl⟩
    rw [String.toList_append, List.take_left]

/-! ### Row statements

A statement acts on the rows one by one, and each row it touches passes the triggers and
constraints that `check` stands for, or the whole statement is refused.  From this come the
two facts that keys rest on: `map_updateWhere`, that a protected column stays as it is, and
`nodup_map_append`, that a fresh key keeps keys apart. -/

section Rows

variable {R κ ε : Type}

/-- `UPDATE … SET … WHERE`: `check old new` stands for the row's triggers and
constraints. -/
def updateWhere (rows : List R) (cond : R → Bool) (assign : R → R) (check : R → R → Bool)
    (e : ε) : Except ε (ℕ × List R) :=
  if rows.all fun r => !cond r || check r (assign r) then
    .ok (rows.countP cond, rows.map fun r => if cond r then assign r else r)
  else .error e

/-- `DELETE … WHERE`: `check` stands for the row's triggers. -/
def deleteWhere (rows : List R) (cond : R → Bool) (check : R → Bool) (e : ε) :
    Except ε (ℕ × List R) :=
  if rows.all fun r => !cond r || check r then
    .ok (rows.countP cond, rows.filter fun r => !cond r)
  else .error e

variable {rows rows' : List R} {cond : R → Bool} {assign : R → R} {check : R → R → Bool}
  {e e' : ε} {n : ℕ}

/-- An update that is accepted checked every row it selects against the row it becomes, counts the
selected rows, and leaves the others as they are. -/
theorem updateWhere_ok (h : updateWhere rows cond assign check e = .ok (n, rows')) :
    n = rows.countP cond ∧ rows' = rows.map (fun r => if cond r then assign r else r) ∧
      ∀ r ∈ rows, cond r = true → check r (assign r) = true := by
  unfold updateWhere at h
  split at h
  · rename_i hall
    cases h
    refine ⟨rfl, rfl, fun r hr hc => ?_⟩
    have := List.all_eq_true.mp hall r hr
    simpa [hc] using this
  · cases h

/-- What an update leaves: the untouched rows, and the touched ones reassigned. -/
theorem mem_updateWhere (h : updateWhere rows cond assign check e = .ok (n, rows')) {r' : R} :
    r' ∈ rows' ↔ (r' ∈ rows ∧ cond r' = false) ∨
      ∃ r ∈ rows, cond r = true ∧ check r (assign r) = true ∧ assign r = r' := by
  obtain ⟨_, rfl, hcheck⟩ := updateWhere_ok h
  rw [List.mem_map]
  constructor
  · rintro ⟨r, hr, rfl⟩
    cases hc : cond r with
    | false => exact .inl (by simpa [hc] using hr)
    | true => exact .inr ⟨r, hr, hc, hcheck r hr hc, by simp⟩
  · rintro (⟨hr, hc⟩ | ⟨r, hr, hc, _, rfl⟩)
    · exact ⟨r', hr, by simp [hc]⟩
    · exact ⟨r, hr, by simp [hc]⟩

/-- A column the checks keep from changing keeps its list of values. -/
theorem map_updateWhere (h : updateWhere rows cond assign check e = .ok (n, rows'))
    {col : R → κ} (hcol : ∀ r, check r (assign r) = true → col (assign r) = col r) :
    rows'.map col = rows.map col := by
  obtain ⟨_, rfl, hcheck⟩ := updateWhere_ok h
  rw [List.map_map]
  refine List.map_congr_left fun r hr => ?_
  by_cases hc : cond r = true
  · simp [hc, hcol r (hcheck r hr hc)]
  · simp [hc]

/-- A deletion that is accepted had every selected row pass its triggers, counts those rows, and
keeps exactly the others. -/
theorem deleteWhere_ok {check : R → Bool}
    (h : deleteWhere rows cond check e = .ok (n, rows')) :
    n = rows.countP cond ∧ rows' = rows.filter (fun r => !cond r) ∧
      ∀ r ∈ rows, cond r = true → check r = true := by
  unfold deleteWhere at h
  split at h
  · rename_i hall
    cases h
    refine ⟨rfl, rfl, fun r hr hc => ?_⟩
    have := List.all_eq_true.mp hall r hr
    simpa [hc] using this
  · cases h

/-- What a deletion leaves. -/
theorem mem_deleteWhere {check : R → Bool}
    (h : deleteWhere rows cond check e = .ok (n, rows')) {r : R} :
    r ∈ rows' ↔ r ∈ rows ∧ cond r = false := by
  obtain ⟨_, rfl, _⟩ := deleteWhere_ok h
  simp

/-- A row with a fresh key keeps the key column free of repetitions. -/
theorem nodup_map_append {key : R → κ} (hkey : (rows.map key).Nodup) {new : R}
    (hfresh : ∀ r ∈ rows, key r ≠ key new) : ((rows ++ [new]).map key).Nodup := by
  rw [List.map_append, List.map_singleton, ← List.concat_eq_append, List.nodup_concat]
  refine ⟨fun hmem => ?_, hkey⟩
  obtain ⟨r, hr, he⟩ := List.mem_map.mp hmem
  exact hfresh r hr he

/-- A primary key that occurs is the key of exactly one row. -/
theorem countP_key_eq_one [DecidableEq κ] {key : R → κ} (hkey : (rows.map key).Nodup) {r : R}
    (hr : r ∈ rows) : rows.countP (fun x => key x == key r) = 1 := by
  have h := List.count_eq_one_of_mem hkey (List.mem_map_of_mem hr)
  rwa [List.count, List.countP_map] at h

/-- With a primary key two rows of a table with one key are the same row. -/
theorem eq_of_key_eq {key : R → κ} (hkey : (rows.map key).Nodup) {a b : R} (ha : a ∈ rows)
    (hb : b ∈ rows) (hab : key a = key b) : a = b :=
  List.inj_on_of_nodup_map hkey ha hb hab

end Rows

end Sql
end Lib
end ThinWorkspace
