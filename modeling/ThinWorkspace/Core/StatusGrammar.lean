/-
# The porcelain-v2 grammar

Source: `crates/thinws-core/src/git.rs` and the format its errors document.  The
grammar is stated on its own, as a type of records whose fields carry their
well-formedness: a `StatusRecord` cannot be malformed, and the texts of the
grammar are the concatenations of `StatusRecord.bytes`.

`splitFields_iff` says what the fields of a record are, one lemma per kind of record
says which texts that kind accepts, `parseRecord_iff` is one pass through the loop,
and `parseTrackedChangeCount_iff` the whole parser.
-/

import Mathlib.Algebra.Group.Nat.Defs
import ThinWorkspace.Core.Status

namespace ThinWorkspace
namespace Core

open Lib.Fallible Lib.Fields

/-! ### The fields of a record

A field is a structure with its form as a proof, so a record of the grammar cannot hold a
field that is malformed.  None of the definitions mentions the parser. -/

/-- What every field but the last one is: a text that is not empty and has neither a space nor NUL.
-/
structure IsField (bytes : List UInt8) : Prop where
  nonempty : bytes ≠ []
  no_space : space ∉ bytes
  no_nul : (0 : UInt8) ∉ bytes

/-- A text of at least one byte, each with a property that neither a space nor a NUL has. -/
theorem isField_of_forall {bytes : List UInt8} {p : UInt8 → Bool} (h : bytes.all p = true)
    (hne : bytes ≠ []) (hspace : p space = false) (hnul : p 0 = false) : IsField bytes := by
  rw [List.all_eq_true] at h
  refine ⟨hne, fun hmem => ?_, fun hmem => ?_⟩
  · have hp := h _ hmem
    rw [hspace] at hp
    cases hp
  · have hp := h _ hmem
    rw [hnul] at hp
    cases hp

/-- Six octal digits, the mode of a file in a tree. -/
structure StatusMode where
  bytes : List UInt8
  length : bytes.length = 6
  octal : bytes.all isOctal = true

/-- 40 or 64 hexadecimal digits, by the two hash functions of Git. -/
structure ObjectName where
  bytes : List UInt8
  length : bytes.length = 40 ∨ bytes.length = 64
  hex : bytes.all isHexDigit = true

/-- `N...`, or `S` and the flags of a submodule. -/
inductive IsSubmodule : List UInt8 → Prop
  | none : IsSubmodule (ascii "N...")
  | some {commit tracked untracked : UInt8} (hcommit : commit ∈ ascii ".C")
      (htracked : tracked ∈ ascii ".M") (huntracked : untracked ∈ ascii ".U") :
      IsSubmodule [83, commit, tracked, untracked]

/-- A submodule field: `N...`, or `S` with three flags. -/
structure StatusSubmodule where
  bytes : List UInt8
  valid : IsSubmodule bytes

/-- The two flags of an ordinary change: not `..`, and neither is `R` or `C`. -/
structure OrdinaryXy where
  bytes : List UInt8
  length : bytes.length = 2
  flags : ∀ byte ∈ bytes, byte ∈ ascii ".MTAD"
  changed : bytes ≠ ascii ".."

/-- The two flags of a renamed or copied path. -/
structure RenamedXy where
  bytes : List UInt8
  length : bytes.length = 2
  flags : ∀ byte ∈ bytes, byte ∈ ascii ".MTADRC"

/-- The two flags of an unmerged path, of which there are seven pairs. -/
structure UnmergedXy where
  bytes : List UInt8
  valid : bytes ∈ [ascii "DD", ascii "AU", ascii "UD", ascii "UA", ascii "DU", ascii "AA",
    ascii "UU"]

/-- The number that decimal digits write, without a bound. -/
def decimalValue (digits : List UInt8) : ℕ :=
  digits.foldl (fun value digit => value * 10 + (digit.toNat - 48)) 0

/-- A score: `R` or `C` as in the flags, and a percentage. -/
structure StatusScore (xy : List UInt8) where
  kind : UInt8
  digits : List UInt8
  kind_mem : kind ∈ ascii "RC"
  kind_mem_xy : kind ∈ xy
  length : 1 ≤ digits.length ∧ digits.length ≤ 3
  decimal : digits.all isDigit = true
  value : decimalValue digits ≤ 100

/-- The bytes of a score: the letter of its kind and its digits. -/
def StatusScore.bytes {xy : List UInt8} (score : StatusScore xy) : List UInt8 :=
  score.kind :: score.digits

/-- A path of a record, which may have spaces but no NUL. -/
structure StatusPath where
  bytes : List UInt8
  nonempty : bytes ≠ []
  no_nul : (0 : UInt8) ∉ bytes

/-- The text of a header, which is one line without a leading space. -/
structure HeaderText where
  bytes : List UInt8
  nonempty : bytes ≠ []
  no_nul : (0 : UInt8) ∉ bytes
  no_line_end : (10 : UInt8) ∉ bytes ∧ (13 : UInt8) ∉ bytes
  no_leading_space : bytes.head? ≠ some space

/-! ### Records

A record is one of six kinds with its fields, and `bytes` is its text with the zero bytes
behind it.  `trackedPath` is what the record counts: nothing for an untracked or ignored
path, a header, and a submodule in which only untracked files have appeared. -/

/-- A record of the grammar: one of the three kinds of tracked changes, an untracked or an ignored
path, or a header. -/
inductive StatusRecord where
  | ordinary (xy : OrdinaryXy) (submodule : StatusSubmodule)
      (headMode indexMode worktreeMode : StatusMode) (headObject indexObject : ObjectName)
      (path : StatusPath)
  | renamed (xy : RenamedXy) (submodule : StatusSubmodule)
      (headMode indexMode worktreeMode : StatusMode) (headObject indexObject : ObjectName)
      (score : StatusScore xy.bytes) (path source : StatusPath)
  | unmerged (xy : UnmergedXy) (submodule : StatusSubmodule)
      (stageOneMode stageTwoMode stageThreeMode worktreeMode : StatusMode)
      (stageOneObject stageTwoObject stageThreeObject : ObjectName) (path : StatusPath)
  | untracked (path : StatusPath)
  | ignored (path : StatusPath)
  | header (text : HeaderText)

namespace StatusRecord

/-- The fields before the last one, which hold no space and so can be split off. -/
def leading : StatusRecord → List (List UInt8)
  | ordinary xy submodule headMode indexMode worktreeMode headObject indexObject _ =>
    [ascii "1", xy.bytes, submodule.bytes, headMode.bytes, indexMode.bytes, worktreeMode.bytes,
      headObject.bytes, indexObject.bytes]
  | renamed xy submodule headMode indexMode worktreeMode headObject indexObject score _ _ =>
    [ascii "2", xy.bytes, submodule.bytes, headMode.bytes, indexMode.bytes, worktreeMode.bytes,
      headObject.bytes, indexObject.bytes, score.bytes]
  | unmerged xy submodule stageOneMode stageTwoMode stageThreeMode worktreeMode stageOneObject
      stageTwoObject stageThreeObject _ =>
    [ascii "u", xy.bytes, submodule.bytes, stageOneMode.bytes, stageTwoMode.bytes,
      stageThreeMode.bytes, worktreeMode.bytes, stageOneObject.bytes, stageTwoObject.bytes,
      stageThreeObject.bytes]
  | untracked _ => [ascii "?"]
  | ignored _ => [ascii "!"]
  | header _ => [ascii "#"]

/-- The last field: a path, or the text of a header. -/
def last : StatusRecord → List UInt8
  | ordinary _ _ _ _ _ _ _ path => path.bytes
  | renamed _ _ _ _ _ _ _ _ path _ => path.bytes
  | unmerged _ _ _ _ _ _ _ _ _ path => path.bytes
  | untracked path => path.bytes
  | ignored path => path.bytes
  | header text => text.bytes

/-- The record without its NUL: the fields, a space between two. -/
def text (record : StatusRecord) : List UInt8 :=
  [space].intercalate (record.leading ++ [record.last])

/-- What follows the NUL of a record: the source path of a rename with its own. -/
def trailer : StatusRecord → List UInt8
  | renamed _ _ _ _ _ _ _ _ _ source => source.bytes ++ [0]
  | _ => []

/-- A record as it stands in the output. -/
def bytes (record : StatusRecord) : List UInt8 := record.text ++ 0 :: record.trailer

/-- The path a record counts; none where only untracked files of a submodule changed. -/
def trackedPath : StatusRecord → Option (List UInt8)
  | ordinary xy submodule headMode indexMode worktreeMode headObject indexObject path =>
    if xy.bytes = ascii ".M" ∧ submodule.bytes = ascii "S..U" ∧
        headMode.bytes = ascii "160000" ∧ indexMode.bytes = ascii "160000" ∧
        worktreeMode.bytes = ascii "160000" ∧ headObject.bytes = indexObject.bytes then none
    else some path.bytes
  | renamed _ _ _ _ _ _ _ _ path _ => some path.bytes
  | unmerged _ _ _ _ _ _ _ _ _ path => some path.bytes
  | untracked _ => none
  | ignored _ => none
  | header _ => none

end StatusRecord

/-! ### One check at a time

Each check of the parser accepts exactly the texts of one type of field.  The lemmas are
equivalences, so each serves both directions of the main theorem: a field of the grammar
passes, and what passes is a field of the grammar. -/

/-- A mode is a field: its six digits are neither a space nor a zero byte. -/
theorem StatusMode.isField (mode : StatusMode) : IsField mode.bytes := by
  refine isField_of_forall mode.octal ?_ rfl rfl
  intro h
  have hlength := mode.length
  rw [h] at hlength
  cases hlength

/-- An object name is a field: its digits are neither a space nor a zero byte. -/
theorem ObjectName.isField (object : ObjectName) : IsField object.bytes := by
  refine isField_of_forall object.hex ?_ rfl rfl
  intro h
  have hlength := object.length
  rw [h] at hlength
  simp at hlength

/-- A submodule field is a field: four flags or dots.  There is one case for `N...` and one for `S`
with its three flags. -/
theorem StatusSubmodule.isField (submodule : StatusSubmodule) : IsField submodule.bytes := by
  obtain ⟨bytes, hvalid⟩ := submodule
  cases hvalid with
  | none => exact ⟨by decide, by decide, by decide⟩
  | some hcommit htracked huntracked =>
    have hflag : ∀ flags : List UInt8, space ∉ flags → 0 ∉ flags → ∀ byte ∈ flags,
        byte ≠ space ∧ byte ≠ 0 := by
      intro flags hspace hnul byte hbyte
      exact ⟨fun h => hspace (h ▸ hbyte), fun h => hnul (h ▸ hbyte)⟩
    have hc := hflag _ (by decide) (by decide) _ hcommit
    have ht := hflag _ (by decide) (by decide) _ htracked
    have hu := hflag _ (by decide) (by decide) _ huntracked
    refine ⟨List.cons_ne_nil _ _, ?_, ?_⟩
    · simp [hc.1.symm, ht.1.symm, hu.1.symm, show space ≠ 83 by decide]
    · simp [hc.2.symm, ht.2.symm, hu.2.symm]

/-- Two flags make a field, where neither a space nor a zero byte is among the flags. -/
theorem isField_flags {bytes flags : List UInt8} (hlength : bytes.length = 2)
    (hflags : ∀ byte ∈ bytes, byte ∈ flags) (hspace : space ∉ flags) (hnul : 0 ∉ flags) :
    IsField bytes := by
  refine ⟨?_, fun h => hspace (hflags _ h), fun h => hnul (hflags _ h)⟩
  rintro rfl
  cases hlength

/-- The flags of an ordinary change are a field. -/
theorem OrdinaryXy.isField (xy : OrdinaryXy) : IsField xy.bytes :=
  isField_flags xy.length xy.flags (by decide) (by decide)

/-- The flags of a rename or copy are a field. -/
theorem RenamedXy.isField (xy : RenamedXy) : IsField xy.bytes :=
  isField_flags xy.length xy.flags (by decide) (by decide)

/-- The flags of an unmerged path are a field. -/
theorem UnmergedXy.isField (xy : UnmergedXy) : IsField xy.bytes := by
  obtain ⟨bytes, hvalid⟩ := xy
  have hall : ∀ pair ∈ [ascii "DD", ascii "AU", ascii "UD", ascii "UA", ascii "DU", ascii "AA",
      ascii "UU"], pair.length = 2 ∧ pair.all (ascii "DAU").contains = true :=
    forall_mem_of_all (by decide)
  obtain ⟨hlength, hflags⟩ := hall bytes hvalid
  have hmem : ∀ byte ∈ bytes, byte ∈ ascii "DAU" := fun byte hbyte =>
    List.contains_iff_mem.mp (List.all_eq_true.mp hflags byte hbyte)
  exact isField_flags hlength hmem (by decide) (by decide)

/-- A score is a field: a letter and digits. -/
theorem StatusScore.isField {xy : List UInt8} (score : StatusScore xy) : IsField score.bytes := by
  have hkind : ∀ kind ∈ ascii "RC", kind ≠ space ∧ kind ≠ 0 := forall_mem_of_all (by decide)
  have hdigits := isField_of_forall score.decimal
    (List.ne_nil_of_length_pos score.length.1) rfl rfl
  obtain ⟨hspace, hnul⟩ := hkind _ score.kind_mem
  refine ⟨List.cons_ne_nil _ _, ?_, ?_⟩
  · simpa [StatusScore.bytes] using ⟨hspace.symm, hdigits.no_space⟩
  · simpa [StatusScore.bytes] using ⟨hnul.symm, hdigits.no_nul⟩

variable {bytes xy record : List UInt8} {offset : ℕ} {recordType : UInt8} {u : Unit}
  {f : StatusField} {paths paths' : Finset (List UInt8)}

/-- The check of a mode accepts exactly the modes. -/
theorem validateMode_iff :
    validateMode bytes f offset recordType = .ok u ↔ ∃ mode : StatusMode, mode.bytes = bytes := by
  rw [validateMode, refuseIf_eq_ok]
  constructor
  · intro h
    simp only [Bool.not_eq_true', Bool.not_eq_false, Bool.and_eq_true, beq_iff_eq] at h
    exact ⟨⟨bytes, h.1, h.2⟩, rfl⟩
  · rintro ⟨mode, rfl⟩
    simp [mode.length, mode.octal]

/-- The check of an object name accepts exactly the object names. -/
theorem validateObject_iff : validateObject bytes f offset recordType = .ok u ↔
    ∃ object : ObjectName, object.bytes = bytes := by
  rw [validateObject, refuseIf_eq_ok]
  constructor
  · intro h
    simp only [Bool.not_eq_true', Bool.not_eq_false, Bool.and_eq_true, Bool.or_eq_true,
      beq_iff_eq] at h
    exact ⟨⟨bytes, h.1, h.2⟩, rfl⟩
  · rintro ⟨object, rfl⟩
    rcases object.length with h | h <;> simp [h, object.hex]

/-- The check of a submodule field accepts exactly the submodule fields.  The check is unfolded
into its conjuncts, one for each byte of the field. -/
theorem validateSubmodule_iff : validateSubmodule bytes offset recordType = .ok u ↔
    ∃ submodule : StatusSubmodule, submodule.bytes = bytes := by
  rw [validateSubmodule, refuseIf_eq_ok]
  constructor
  · intro h
    simp only [Bool.not_eq_true', Bool.not_eq_false, Bool.or_eq_true, Bool.and_eq_true,
      beq_iff_eq, List.contains_iff_mem] at h
    rcases h with rfl | ⟨⟨⟨⟨hlength, hs⟩, hcommit⟩, htracked⟩, huntracked⟩
    · exact ⟨⟨_, .none⟩, rfl⟩
    · match bytes, hlength with
      | [s, commit, tracked, untracked], _ =>
        obtain rfl : s = 83 := List.mem_singleton.mp hs
        exact ⟨⟨_, .some hcommit htracked huntracked⟩, rfl⟩
  · rintro ⟨⟨bytes, hvalid⟩, rfl⟩
    cases hvalid with
    | none => decide
    | some hcommit htracked huntracked =>
      have hc := List.contains_iff_mem.mpr hcommit
      have ht := List.contains_iff_mem.mpr htracked
      have hu := List.contains_iff_mem.mpr huntracked
      have hs : (ascii "S").contains 83 = true := rfl
      simp only [List.getD_cons_zero, List.getD_cons_succ, hs, hc, ht, hu]
      simp

/-- The check of two flags accepts exactly those of a tracked change. -/
theorem validateXy_renamed_iff : validateXy xy false offset recordType = .ok u ↔
    ∃ flags : RenamedXy, flags.bytes = xy := by
  rw [validateXy, refuseIf_eq_ok]
  constructor
  · intro h
    simp only [Bool.false_eq_true, if_false, Bool.not_eq_true', Bool.not_eq_false,
      Bool.and_eq_true, beq_iff_eq, List.all_eq_true, List.contains_iff_mem] at h
    exact ⟨⟨xy, h.1, h.2⟩, rfl⟩
  · rintro ⟨flags, rfl⟩
    simpa [flags.length, changeFlags] using flags.flags

/-- For an unmerged path it accepts exactly the seven pairs. -/
theorem validateXy_unmerged_iff : validateXy xy true offset recordType = .ok u ↔
    ∃ flags : UnmergedXy, flags.bytes = xy := by
  rw [validateXy, refuseIf_eq_ok]
  constructor
  · intro h
    simp only [if_true, Bool.not_eq_true', Bool.not_eq_false, List.contains_iff_mem] at h
    exact ⟨⟨xy, h⟩, rfl⟩
  · rintro ⟨flags, rfl⟩
    have h : unmergedPairs.contains flags.bytes = true := List.contains_iff_mem.mpr flags.valid
    rw [if_pos rfl, h]
    decide

/-- An ordinary change has the flags that are neither `..` nor name a rename or copy.  The alphabet
of the renames is that of the ordinary changes with the two letters more, and the excluded text is
the one without a change. -/
theorem ordinaryXy_iff : (∃ flags : OrdinaryXy, flags.bytes = xy) ↔
    (∃ flags : RenamedXy, flags.bytes = xy) ∧
      ¬(xy = ascii ".." ∨ xy.any (ascii "RC").contains = true) := by
  have hflag : ∀ byte ∈ ascii ".MTADRC", byte ∈ ascii ".MTAD" ∨ byte ∈ ascii "RC" :=
    forall_mem_of_all (by decide)
  have hboth : ∀ byte ∈ ascii ".MTAD", byte ∈ ascii ".MTADRC" ∧ byte ∉ ascii "RC" :=
    forall_mem_of_all (by decide)
  constructor
  · rintro ⟨flags, rfl⟩
    refine ⟨⟨⟨_, flags.length, fun byte h => (hboth _ (flags.flags _ h)).1⟩, rfl⟩, ?_⟩
    rintro (h | h)
    · exact flags.changed h
    · obtain ⟨byte, hbyte, hrc⟩ := List.any_eq_true.mp h
      exact (hboth _ (flags.flags _ hbyte)).2 (List.contains_iff_mem.mp hrc)
  · rintro ⟨⟨flags, rfl⟩, h⟩
    rw [not_or] at h
    refine ⟨⟨_, flags.length, fun byte hbyte => ?_, h.1⟩, rfl⟩
    rcases hflag _ (flags.flags _ hbyte) with hm | hrc
    · exact hm
    · exact absurd (List.any_eq_true.mpr ⟨byte, hbyte, List.contains_iff_mem.mpr hrc⟩) h.2

/-- The value read so far and the digits still to come stay below 1000: nothing overflows.  The
induction is on the digits, and the bound that carries it says that the value with all remaining
digits nines is still below 1000. -/
theorem foldlM_decimal {digits : List UInt8} {value : ℕ} (hdigits : ∀ d ∈ digits, d.toNat ≤ 57)
    (h : (value + 1) * 10 ^ digits.length ≤ 1000) :
    digits.foldlM (fun value digit =>
      if value * 10 < 65536 ∧ value * 10 + (digit.toNat - 48) < 65536 then
        some (value * 10 + (digit.toNat - 48))
      else none) value =
    some (digits.foldl (fun value digit => value * 10 + (digit.toNat - 48)) value) := by
  induction digits generalizing value with
  | nil => rfl
  | cons d digits ih =>
    have hd := hdigits d List.mem_cons_self
    have hnext : (value * 10 + (d.toNat - 48) + 1) * 10 ^ digits.length ≤ 1000 := by
      calc (value * 10 + (d.toNat - 48) + 1) * 10 ^ digits.length
          ≤ ((value + 1) * 10) * 10 ^ digits.length := Nat.mul_le_mul_right _ (by omega)
        _ = (value + 1) * 10 ^ (d :: digits).length := by
          rw [List.length_cons, Nat.pow_succ, Nat.mul_assoc, Nat.mul_comm 10]
        _ ≤ 1000 := h
    have hpos : 1 ≤ 10 ^ digits.length := Nat.one_le_pow _ _ (by omega)
    have hvalue : value * 10 + (d.toNat - 48) + 1 ≤ 1000 :=
      (Nat.le_mul_of_pos_right _ hpos).trans hnext
    rw [List.foldlM_cons, if_pos (by omega), List.foldl_cons]
    exact ih (fun d hd => hdigits d (List.mem_cons_of_mem _ hd)) hnext

/-- A number of at most three digits does not overflow. -/
theorem parseDecimal_eq {digits : List UInt8} (h : digits.length ≤ 3)
    (hdigits : digits.all isDigit = true) : parseDecimal digits = some (decimalValue digits) := by
  refine foldlM_decimal (fun d hd => ?_) ?_
  · have hrange := List.all_eq_true.mp hdigits d hd
    simp only [isDigit, Bool.and_eq_true, decide_eq_true_eq] at hrange
    exact hrange.2
  · have hpow : 10 ^ digits.length ≤ 10 ^ 3 := Nat.pow_le_pow_right (by omega) h
    omega

/-- The check of a score accepts exactly the scores that belong to the flags.  The first byte is
the letter that has to stand among the flags, and the digits behind it are at most three, so their
value is read without overflow. -/
theorem validateScore_iff : validateScore bytes xy offset = .ok u ↔
    ∃ score : StatusScore xy, score.bytes = bytes := by
  unfold validateScore
  cases bytes with
  | nil =>
    constructor
    · intro h
      cases h
    · rintro ⟨score, h⟩
      cases h
  | cons kind digits =>
    simp only
    rw [refuseIf_eq_ok]
    simp only [Bool.not_eq_true', Bool.not_eq_false, Bool.and_eq_true, decide_eq_true_eq,
      List.contains_iff_mem, List.isEmpty_eq_false_iff]
    constructor
    · rintro ⟨⟨⟨⟨⟨hkind, hxy⟩, hne⟩, hlength⟩, hdigits⟩, hvalue⟩
      rw [parseDecimal_eq hlength hdigits, Option.any_some, decide_eq_true_eq] at hvalue
      have hpos := List.length_pos_iff.mpr hne
      exact ⟨⟨kind, digits, hkind, hxy, ⟨hpos, hlength⟩, hdigits, hvalue⟩, rfl⟩
    · rintro ⟨score, h⟩
      obtain ⟨rfl, rfl⟩ := List.cons.inj h
      refine ⟨⟨⟨⟨⟨score.kind_mem, score.kind_mem_xy⟩, ?_⟩, score.length.2⟩, score.decimal⟩, ?_⟩
      · exact List.ne_nil_of_length_pos score.length.1
      · rw [parseDecimal_eq score.length.2 score.decimal, Option.any_some, decide_eq_true_eq]
        exact score.value

/-! ### Fields

Splitting at spaces undoes putting the fields together, as no field but the last one holds a
space (`splitFields_iff`).  Every kind of record goes through this one lemma. -/

/-- **The fields of a record**: as many as asked for, none of them empty, the tag first, and no
space in any but the last.  Only the last field may contain a space, since the split stops after
the one before it; joining the fields with a space gives back the record. -/
theorem splitFields_iff {n : ℕ} {fields : List (List UInt8)} :
    splitFields (n + 1) record offset recordType = .ok fields ↔
      fields.length = n + 1 ∧ (∀ field ∈ fields, field ≠ []) ∧
      field fields 0 = [recordType] ∧ record = [space].intercalate fields ∧
      ∀ field ∈ fields.dropLast, space ∉ field := by
  have hpad : ∀ {split : List (List UInt8)}, split.length = n + 1 →
      (List.range (n + 1)).map (field split) = split := by
    intro split hlength
    refine List.ext_getElem (by simp [hlength]) fun i hi hi' => ?_
    simp [field, hi']
  simp only [splitFields, bind_eq_ok, refuseIf_eq_ok]
  constructor
  · rintro ⟨_, hempty, _, htag, he⟩
    have hfull : (splitn space (n + 1) record).length = n + 1 := by
      by_contra hne
      have hlt : (splitn space (n + 1) record).length < n + 1 :=
        lt_of_le_of_ne (length_splitn_le _ _) hne
      refine hempty (List.any_eq_true.mpr ⟨[], List.mem_map.mpr ⟨n, by simp, ?_⟩, rfl⟩)
      rw [field, List.getD_eq_getElem?_getD, List.getElem?_eq_none (by omega)]
      rfl
    rw [hpad hfull] at hempty htag he
    cases he
    obtain ⟨hjoin, hspace⟩ := (splitn_iff hfull).mp rfl
    refine ⟨hfull, fun field hfield hnil => hempty ?_, not_not.mp htag, hjoin, hspace⟩
    exact List.any_eq_true.mpr ⟨field, hfield, List.isEmpty_iff.mpr hnil⟩
  · rintro ⟨hlength, hne, htag, hjoin, hspace⟩
    have hsplit := (splitn_iff hlength).mpr ⟨hjoin, hspace⟩
    rw [hsplit, hpad hlength]
    refine ⟨(), fun hany => ?_, (), not_not.mpr htag, rfl⟩
    obtain ⟨field, hfield, hnil⟩ := List.any_eq_true.mp hany
    exact hne field hfield (List.isEmpty_iff.mp hnil)

namespace StatusRecord

/-- The tag of a record, by which the parser chooses how to read it. -/
def tag : StatusRecord → UInt8
  | ordinary _ _ _ _ _ _ _ _ => 49
  | renamed _ _ _ _ _ _ _ _ _ _ => 50
  | unmerged _ _ _ _ _ _ _ _ _ _ => 117
  | untracked _ => 63
  | ignored _ => 33
  | header _ => 35

/-- The paths after a record: one more for a tracked change, and the same for everything else. -/
def track (record : StatusRecord) (paths : Finset (List UInt8)) : Finset (List UInt8) :=
  record.trackedPath.elim paths (insert · paths)

/-- A tag is a field: one byte that separates nothing. -/
theorem isField_tag {tag : String} (h : tag ∈ ["1", "2", "u", "?", "!", "#"]) :
    IsField (ascii tag) := by
  have hall : ∀ tag ∈ ["1", "2", "u", "?", "!", "#"],
      ascii tag ≠ [] ∧ space ∉ ascii tag ∧ 0 ∉ ascii tag := by decide
  obtain ⟨hne, hspace, hnul⟩ := hall tag h
  exact ⟨hne, hspace, hnul⟩

/-- The fields of a record before the last one are fields. -/
theorem isField_leading (record : StatusRecord) : ∀ bytes ∈ record.leading, IsField bytes := by
  cases record <;>
    simp [leading, isField_tag, StatusMode.isField, ObjectName.isField, StatusSubmodule.isField,
      OrdinaryXy.isField, RenamedXy.isField, UnmergedXy.isField, StatusScore.isField]

/-- The last field of a record is not empty and has no NUL. -/
theorem last_valid (record : StatusRecord) : record.last ≠ [] ∧ (0 : UInt8) ∉ record.last := by
  cases record with
  | ordinary _ _ _ _ _ _ _ path => exact ⟨path.nonempty, path.no_nul⟩
  | renamed _ _ _ _ _ _ _ _ path _ => exact ⟨path.nonempty, path.no_nul⟩
  | unmerged _ _ _ _ _ _ _ _ _ path => exact ⟨path.nonempty, path.no_nul⟩
  | untracked path => exact ⟨path.nonempty, path.no_nul⟩
  | ignored path => exact ⟨path.nonempty, path.no_nul⟩
  | header text => exact ⟨text.nonempty, text.no_nul⟩

/-- The text of a record has no NUL, which is what ends it in the output. -/
theorem text_no_nul (record : StatusRecord) : (0 : UInt8) ∉ record.text := by
  intro h
  rcases mem_intercalate h with h | ⟨bytes, hbytes, h⟩
  · exact absurd h (by decide)
  · rcases List.mem_append.mp hbytes with hbytes | hbytes
    · exact (record.isField_leading _ hbytes).no_nul h
    · exact record.last_valid.2 (List.mem_singleton.mp hbytes ▸ h)

/-- The fields of the text of a record are found again. -/
theorem splitFields_text (record : StatusRecord) {n : ℕ} (h : record.leading.length = n) :
    splitFields (n + 1) record.text offset record.tag =
      .ok (record.leading ++ [record.last]) := by
  refine splitFields_iff.mpr ⟨by simp [h], fun bytes hbytes => ?_, ?_, rfl, fun bytes hbytes => ?_⟩
  · rcases List.mem_append.mp hbytes with hbytes | hbytes
    · exact (record.isField_leading _ hbytes).nonempty
    · exact List.mem_singleton.mp hbytes ▸ record.last_valid.1
  · cases record <;> rfl
  · rw [List.dropLast_concat] at hbytes
    exact (record.isField_leading _ hbytes).no_space

end StatusRecord

/-! ### Records

From the grammar to the parser: each kind of record is read back, with its path counted, and
`parseRecord_bytes` puts the kinds together by the tag that a record begins with. -/

/-- The checks that all tracked changes have in common accept exactly records whose fields are of
the grammar. -/
theorem validateTracked_iff {fields : List (List UInt8)} :
    validateTracked fields offset recordType = .ok u ↔
      (∃ xy : RenamedXy, xy.bytes = field fields 1) ∧
      (∃ submodule : StatusSubmodule, submodule.bytes = field fields 2) ∧
      (∃ mode : StatusMode, mode.bytes = field fields 3) ∧
      (∃ mode : StatusMode, mode.bytes = field fields 4) ∧
      (∃ mode : StatusMode, mode.bytes = field fields 5) ∧
      (∃ object : ObjectName, object.bytes = field fields 6) ∧
      ∃ object : ObjectName, object.bytes = field fields 7 := by
  simp only [validateTracked, bind_eq_ok, validateXy_renamed_iff, validateSubmodule_iff,
    validateMode_iff, validateObject_iff, exists_const]

namespace StatusRecord

/-- What `parse_ordinary` inserts is what the record counts: its path, unless only untracked files
have appeared in a submodule.  The condition of the parser is spelled out field by field, and it is
the one by which the grammar leaves a record uncounted. -/
theorem track_ordinary (xy : OrdinaryXy) (submodule : StatusSubmodule)
    (headMode indexMode worktreeMode : StatusMode) (headObject indexObject : ObjectName)
    (path : StatusPath) :
    let record := ordinary xy submodule headMode indexMode worktreeMode headObject indexObject path
    let fields := record.leading ++ [record.last]
    (if onlyUntrackedSubmodule fields then paths else insert (field fields 8) paths) =
      record.track paths := by
  intro record fields
  have hiff : onlyUntrackedSubmodule fields = true ↔
      xy.bytes = ascii ".M" ∧ submodule.bytes = ascii "S..U" ∧
        headMode.bytes = ascii "160000" ∧ indexMode.bytes = ascii "160000" ∧
        worktreeMode.bytes = ascii "160000" ∧ headObject.bytes = indexObject.bytes := by
    have heq : onlyUntrackedSubmodule fields = (xy.bytes == ascii ".M" &&
        submodule.bytes == ascii "S..U" && headMode.bytes == ascii "160000" &&
        headMode.bytes == indexMode.bytes && indexMode.bytes == worktreeMode.bytes &&
        headObject.bytes == indexObject.bytes) := rfl
    rw [heq]
    simp only [Bool.and_eq_true, beq_iff_eq]
    constructor
    · rintro ⟨⟨⟨⟨⟨hxy, hsubmodule⟩, hhead⟩, hindex⟩, hworktree⟩, hobject⟩
      exact ⟨hxy, hsubmodule, hhead, hindex ▸ hhead, hworktree ▸ hindex ▸ hhead, hobject⟩
    · rintro ⟨hxy, hsubmodule, hhead, hindex, hworktree, hobject⟩
      exact ⟨⟨⟨⟨⟨hxy, hsubmodule⟩, hhead⟩, hhead.trans hindex.symm⟩,
        hindex.trans hworktree.symm⟩, hobject⟩
  have hpath : record.trackedPath =
      if onlyUntrackedSubmodule fields = true then none else some path.bytes := by
    rw [if_congr hiff rfl rfl]
    rfl
  rw [track, hpath]
  by_cases h : onlyUntrackedSubmodule fields = true
  · rw [if_pos h, if_pos h]
    rfl
  · rw [if_neg h, if_neg h]
    rfl

/-- An ordinary change of the grammar is accepted, and its path counted. -/
theorem parseOrdinary_text (xy : OrdinaryXy) (submodule : StatusSubmodule)
    (headMode indexMode worktreeMode : StatusMode) (headObject indexObject : ObjectName)
    (path : StatusPath) :
    let record := ordinary xy submodule headMode indexMode worktreeMode headObject indexObject path
    parseOrdinary record.text offset paths = .ok (record.track paths) := by
  intro record
  have hfields : splitFields 9 record.text offset 49 = .ok (record.leading ++ [record.last]) :=
    splitFields_text record rfl
  obtain ⟨hxy, hchanged⟩ := ordinaryXy_iff.mp ⟨xy, rfl⟩
  simp only [parseOrdinary, bind_eq_ok, refuseIf_eq_ok]
  exact ⟨_, hfields, (), validateTracked_iff.mpr ⟨hxy, ⟨submodule, rfl⟩, ⟨headMode, rfl⟩,
    ⟨indexMode, rfl⟩, ⟨worktreeMode, rfl⟩, ⟨headObject, rfl⟩, ⟨indexObject, rfl⟩⟩, (),
    hchanged, congrArg Except.ok (track_ordinary ..)⟩

/-- A rename of the grammar is accepted, and its path counted. -/
theorem parseRenamed_text (xy : RenamedXy) (submodule : StatusSubmodule)
    (headMode indexMode worktreeMode : StatusMode) (headObject indexObject : ObjectName)
    (score : StatusScore xy.bytes) (path source : StatusPath) :
    let record := renamed xy submodule headMode indexMode worktreeMode headObject indexObject
      score path source
    parseRenamed record.text offset paths = .ok (record.track paths) := by
  intro record
  have hfields : splitFields 10 record.text offset 50 = .ok (record.leading ++ [record.last]) :=
    splitFields_text record rfl
  simp only [parseRenamed, bind_eq_ok]
  exact ⟨_, hfields, (), validateTracked_iff.mpr ⟨⟨xy, rfl⟩, ⟨submodule, rfl⟩, ⟨headMode, rfl⟩,
    ⟨indexMode, rfl⟩, ⟨worktreeMode, rfl⟩, ⟨headObject, rfl⟩, ⟨indexObject, rfl⟩⟩, (),
    validateScore_iff.mpr ⟨score, rfl⟩, rfl⟩

/-- An unmerged path of the grammar is accepted and counted.  The fields are those the record was
written with, and each check accepts its field. -/
theorem parseUnmerged_text (xy : UnmergedXy) (submodule : StatusSubmodule)
    (stageOneMode stageTwoMode stageThreeMode worktreeMode : StatusMode)
    (stageOneObject stageTwoObject stageThreeObject : ObjectName) (path : StatusPath) :
    let record := unmerged xy submodule stageOneMode stageTwoMode stageThreeMode worktreeMode
      stageOneObject stageTwoObject stageThreeObject path
    parseUnmerged record.text offset paths = .ok (record.track paths) := by
  intro record
  have hfields : splitFields 11 record.text offset 117 = .ok (record.leading ++ [record.last]) :=
    splitFields_text record rfl
  simp only [parseUnmerged, bind_eq_ok, validateXy_unmerged_iff, validateSubmodule_iff,
    validateMode_iff, validateObject_iff]
  exact ⟨_, hfields, (), ⟨xy, rfl⟩, (), ⟨submodule, rfl⟩, (), ⟨stageOneMode, rfl⟩, (),
    ⟨stageTwoMode, rfl⟩, (), ⟨stageThreeMode, rfl⟩, (), ⟨worktreeMode, rfl⟩, (),
    ⟨stageOneObject, rfl⟩, (), ⟨stageTwoObject, rfl⟩, (), ⟨stageThreeObject, rfl⟩, rfl⟩

/-- The text of a record of two fields is its tag, a space and the rest. -/
theorem text_pair (record : StatusRecord) (h : record.leading = [[record.tag]]) :
    record.text = record.tag :: space :: record.last := by
  rw [text, h]
  simp

/-- An untracked or ignored path of the grammar is accepted. -/
theorem parseOtherItem_text (offset : ℕ) (record : StatusRecord)
    (h : record.leading = [[record.tag]]) :
    parseOtherItem record.text offset record.tag = .ok () := by
  have hpos := List.length_pos_iff.mpr record.last_valid.1
  rw [parseOtherItem, refuseIf_eq_ok, text_pair record h]
  simp [record.last_valid.1]
  omega

/-- A header of the grammar is accepted, since its text meets the checks of the parser.  The text
is not empty, has no space in front and no end of line, which is what the parser asks for. -/
theorem parseHeader_text (text : HeaderText) :
    parseHeader (header text).text offset = .ok () := by
  have hpos := List.length_pos_iff.mpr text.nonempty
  have hhead : text.bytes.getD 0 0 ≠ space := by
    obtain ⟨first, rest, hbytes⟩ := List.exists_cons_of_ne_nil text.nonempty
    have hspace := text.no_leading_space
    rw [hbytes] at hspace ⊢
    simpa using hspace
  have hline : ¬(text.bytes.any [10, 13].contains = true) := by
    rw [List.any_eq_true]
    rintro ⟨byte, hbyte, hend⟩
    rcases List.mem_cons.mp (List.contains_iff_mem.mp hend) with rfl | hend
    · exact text.no_line_end.1 hbyte
    · exact text.no_line_end.2 (List.mem_singleton.mp hend ▸ hbyte)
  rw [parseHeader, refuseIf_eq_ok, text_pair (header text) rfl]
  rintro (hlength | hspace | hnil | hspace | hend)
  · simp only [last, List.length_cons] at hlength
    omega
  · exact hspace rfl
  · exact text.nonempty hnil
  · exact hhead hspace
  · exact hline hend

/-- A record begins with its tag, by which the parser chooses. -/
theorem head_text (record : StatusRecord) : record.text.headD 0 = record.tag := by
  cases record <;> rfl

/-- **A record of the grammar is read**: it is taken from the front of the text, and its path is
counted.  The record ends at its first NUL, which no part of its text contains.  The cases are the
kinds of records, and the renamed one takes a second text behind the NUL. -/
theorem parseRecord_bytes (record : StatusRecord) (rest : List UInt8) (offset : ℕ)
    (paths : Finset (List UInt8)) : parseRecord (record.bytes ++ rest) offset paths =
      .ok (rest, offset + record.bytes.length, record.track paths) := by
  have hcut : cut 0 (record.bytes ++ rest) = some (record.text, record.trailer ++ rest) := by
    rw [bytes, List.append_assoc, List.cons_append]
    exact cut_append record.text_no_nul
  unfold parseRecord
  rw [hcut]
  simp only [head_text]
  have hlength : record.bytes.length = record.text.length + 1 + record.trailer.length := by
    rw [bytes, List.length_append, List.length_cons]
    omega
  rw [hlength]
  cases record with
  | ordinary =>
    rw [if_pos (by rfl), parseOrdinary_text]
    rfl
  | renamed _ _ _ _ _ _ _ _ _ source =>
    have hsource : renameSource ((source.bytes ++ [0]) ++ rest) offset =
        .ok (source.bytes, rest) := by
      rw [renameSource, List.append_assoc]
      simp only [List.singleton_append, cut_append source.no_nul, if_neg source.nonempty]
    rw [if_neg (by simp [tag]), if_pos (by rfl), parseRenamed_text]
    simp only [trailer, List.length_append, List.length_singleton]
    have hnext : ∀ n, offset + (n + 1 + (source.bytes.length + 1)) =
        offset + n + 1 + source.bytes.length + 1 := fun n => by omega
    rw [hnext]
    exact bind_eq_ok.mpr ⟨_, rfl, bind_eq_ok.mpr ⟨_, hsource, rfl⟩⟩
  | unmerged =>
    rw [if_neg (by simp [tag]), if_neg (by simp [tag]), if_pos (by rfl), parseUnmerged_text]
    rfl
  | untracked path =>
    have hother := parseOtherItem_text offset (untracked path) rfl
    rw [if_neg (by simp [tag]), if_neg (by simp [tag]), if_neg (by simp [tag]),
      if_pos (by simp [tag]), hother]
    rfl
  | ignored path =>
    have hother := parseOtherItem_text offset (ignored path) rfl
    rw [if_neg (by simp [tag]), if_neg (by simp [tag]), if_neg (by simp [tag]),
      if_pos (by simp [tag]), hother]
    rfl
  | header text =>
    rw [if_neg (by simp [tag]), if_neg (by simp [tag]), if_neg (by simp [tag]),
      if_neg (by simp [tag]), if_pos (by rfl), parseHeader_text]
    rfl

end StatusRecord

/-! ### What the parser accepts

From the parser to the grammar: whatever one of the functions accepts is the text of a
record of its kind.  The cases are the branches of the parser, and each is closed by the
equivalence of the checks on its way. -/

/-- The fields that `splitFields` finds in a text without a NUL, the last one a path.  A field that
is not empty and has no NUL is a path, and the last one may contain spaces. -/
theorem splitFields_ok {n : ℕ} {fields : List (List UInt8)} (hnul : (0 : UInt8) ∉ record)
    (h : splitFields (n + 1) record offset recordType = .ok fields) :
    ∃ path : StatusPath, path.bytes = field fields n ∧ field fields 0 = [recordType] ∧
      record = [space].intercalate ((List.range n).map (field fields) ++ [path.bytes]) := by
  obtain ⟨hlength, hne, htag, hjoin, -⟩ := splitFields_iff.mp h
  have hfields : (List.range n).map (field fields) ++ [field fields n] = fields := by
    refine List.ext_getElem (by simp [hlength]) fun i hi hi' => ?_
    rcases Nat.lt_or_ge i n with hlt | hge
    · simp [List.getElem_append_left, hlt, field, hi']
    · obtain rfl : i = n := by omega
      simp [field, hi']
  have hlast : field fields n ∈ fields := by
    have hmem : field fields n ∈ (List.range n).map (field fields) ++ [field fields n] :=
      List.mem_append_right _ (List.mem_singleton_self _)
    rwa [hfields] at hmem
  refine ⟨⟨field fields n, hne _ hlast, fun h0 => hnul ?_⟩, rfl, htag, ?_⟩
  · rw [hjoin]
    exact mem_intercalate_of_mem hlast h0
  · exact hjoin.trans (congrArg _ hfields.symm)

/-- What is accepted as an ordinary change is one of the grammar.  The fields that the checks
accept are put together to a record, whose text is the joined fields again; parsing that text shows
what is counted. -/
theorem parseOrdinary_ok (hnul : (0 : UInt8) ∉ record)
    (h : parseOrdinary record offset paths = .ok paths') :
    ∃ r : StatusRecord, r.text = record ∧ r.trailer = [] ∧ paths' = r.track paths := by
  have hparsed := h
  simp only [parseOrdinary, bind_eq_ok, refuseIf_eq_ok] at h
  obtain ⟨fields, hfields, _, htracked, _, hchanged, -⟩ := h
  obtain ⟨path, -, htag, hjoin⟩ := splitFields_ok hnul hfields
  obtain ⟨hxy, ⟨submodule, hsubmodule⟩, ⟨headMode, hhead⟩, ⟨indexMode, hindex⟩,
    ⟨worktreeMode, hworktree⟩, ⟨headObject, hheadObject⟩, indexObject, hindexObject⟩ :=
    validateTracked_iff.mp htracked
  obtain ⟨xy, hxy⟩ := ordinaryXy_iff.mpr ⟨hxy, hchanged⟩
  let r := StatusRecord.ordinary xy submodule headMode indexMode worktreeMode headObject
    indexObject path
  have htext : r.text = record := by
    have hleading : r.leading = (List.range 8).map (field fields) := by
      show [ascii "1", xy.bytes, submodule.bytes, headMode.bytes, indexMode.bytes,
        worktreeMode.bytes, headObject.bytes, indexObject.bytes] = _
      rw [hxy, hsubmodule, hhead, hindex, hworktree, hheadObject, hindexObject,
        show ascii "1" = field fields 0 from htag.symm]
      rfl
    rw [StatusRecord.text, hleading, hjoin]
    rfl
  refine ⟨r, htext, rfl, ?_⟩
  rw [← htext, StatusRecord.parseOrdinary_text] at hparsed
  exact (Except.ok.inj hparsed).symm

/-- What is accepted as a rename is one of the grammar, whatever its source is.  It goes as for an
ordinary change, with a score that has to fit the flags. -/
theorem parseRenamed_ok (hnul : (0 : UInt8) ∉ record)
    (h : parseRenamed record offset paths = .ok paths') (source : StatusPath) :
    ∃ r : StatusRecord, r.text = record ∧ r.trailer = source.bytes ++ [0] ∧
      paths' = r.track paths := by
  have hparsed := h
  simp only [parseRenamed, bind_eq_ok] at h
  obtain ⟨fields, hfields, _, htracked, _, hscore, -⟩ := h
  obtain ⟨path, -, htag, hjoin⟩ := splitFields_ok hnul hfields
  obtain ⟨⟨xy, hxy⟩, ⟨submodule, hsubmodule⟩, ⟨headMode, hhead⟩, ⟨indexMode, hindex⟩,
    ⟨worktreeMode, hworktree⟩, ⟨headObject, hheadObject⟩, indexObject, hindexObject⟩ :=
    validateTracked_iff.mp htracked
  rw [← hxy] at hscore
  obtain ⟨score, hscore⟩ := validateScore_iff.mp hscore
  let r := StatusRecord.renamed xy submodule headMode indexMode worktreeMode headObject
    indexObject score path source
  have htext : r.text = record := by
    have hleading : r.leading = (List.range 9).map (field fields) := by
      show [ascii "2", xy.bytes, submodule.bytes, headMode.bytes, indexMode.bytes,
        worktreeMode.bytes, headObject.bytes, indexObject.bytes, score.bytes] = _
      rw [hscore, hxy, hsubmodule, hhead, hindex, hworktree, hheadObject, hindexObject,
        show ascii "2" = field fields 0 from htag.symm]
      rfl
    rw [StatusRecord.text, hleading, hjoin]
    rfl
  refine ⟨r, htext, rfl, ?_⟩
  rw [← htext, StatusRecord.parseRenamed_text] at hparsed
  exact (Except.ok.inj hparsed).symm

/-- What is accepted as an unmerged path is one of the grammar.  It goes as for an ordinary change,
with three stages of modes and objects. -/
theorem parseUnmerged_ok (hnul : (0 : UInt8) ∉ record)
    (h : parseUnmerged record offset paths = .ok paths') :
    ∃ r : StatusRecord, r.text = record ∧ r.trailer = [] ∧ paths' = r.track paths := by
  have hparsed := h
  simp only [parseUnmerged, bind_eq_ok, validateXy_unmerged_iff, validateSubmodule_iff,
    validateMode_iff, validateObject_iff, exists_const] at h
  obtain ⟨fields, hfields, ⟨xy, hxy⟩, ⟨submodule, hsubmodule⟩, ⟨stageOneMode, hmode1⟩,
    ⟨stageTwoMode, hmode2⟩, ⟨stageThreeMode, hmode3⟩, ⟨worktreeMode, hworktree⟩,
    ⟨stageOneObject, hobject1⟩, ⟨stageTwoObject, hobject2⟩, ⟨stageThreeObject, hobject3⟩, -⟩ := h
  obtain ⟨path, -, htag, hjoin⟩ := splitFields_ok hnul hfields
  let r := StatusRecord.unmerged xy submodule stageOneMode stageTwoMode stageThreeMode
    worktreeMode stageOneObject stageTwoObject stageThreeObject path
  have htext : r.text = record := by
    have hleading : r.leading = (List.range 10).map (field fields) := by
      show [ascii "u", xy.bytes, submodule.bytes, stageOneMode.bytes, stageTwoMode.bytes,
        stageThreeMode.bytes, worktreeMode.bytes, stageOneObject.bytes, stageTwoObject.bytes,
        stageThreeObject.bytes] = _
      rw [hxy, hsubmodule, hmode1, hmode2, hmode3, hworktree, hobject1, hobject2, hobject3,
        show ascii "u" = field fields 0 from htag.symm]
      rfl
    rw [StatusRecord.text, hleading, hjoin]
    rfl
  refine ⟨r, htext, rfl, ?_⟩
  rw [← htext, StatusRecord.parseUnmerged_text] at hparsed
  exact (Except.ok.inj hparsed).symm

/-- A text that `parse_other_item` accepts, whose first byte is its tag. -/
theorem parseOtherItem_ok (hnul : (0 : UInt8) ∉ record)
    (h : parseOtherItem record offset recordType = .ok u) :
    ∃ path : StatusPath, record = record.headD 0 :: space :: path.bytes := by
  rw [parseOtherItem, refuseIf_eq_ok, not_or, not_or] at h
  obtain ⟨hlength, hspace, hnil⟩ := h
  match record, hlength with
  | tag :: second :: rest, _ =>
    obtain rfl : second = space := not_not.mp hspace
    refine ⟨⟨rest, hnil, fun h0 => hnul ?_⟩, rfl⟩
    exact List.mem_cons_of_mem _ (List.mem_cons_of_mem _ h0)

/-- What is accepted as a header is one of the grammar.  The first byte is the tag and the second
one a space, and the rest passes the checks of the text. -/
theorem parseHeader_ok (hnul : (0 : UInt8) ∉ record) (h : parseHeader record offset = .ok u) :
    ∃ text : HeaderText, record = record.headD 0 :: space :: text.bytes := by
  rw [parseHeader, refuseIf_eq_ok] at h
  simp only [not_or] at h
  obtain ⟨hlength, hspace, hnil, hfirst, hend⟩ := h
  match record, hlength with
  | tag :: second :: rest, _ =>
    obtain rfl : second = space := not_not.mp hspace
    have hline : ∀ byte ∈ [10, 13], byte ∉ rest := fun byte hbyte hmem =>
      hend (List.any_eq_true.mpr ⟨byte, hmem, List.contains_iff_mem.mpr hbyte⟩)
    refine ⟨⟨rest, hnil, fun h0 => hnul ?_, ⟨hline 10 (by simp), hline 13 (by simp)⟩, ?_⟩, rfl⟩
    · exact List.mem_cons_of_mem _ (List.mem_cons_of_mem _ h0)
    · intro hhead
      obtain ⟨tail, rfl⟩ := List.head?_eq_some_iff.mp hhead
      exact hfirst rfl

/-- **What is read is a record of the grammar.**  The tag selects the parser, and for each of them
the lemma above gives the record; a renamed one takes the source that follows in the text. -/
theorem parseRecord_ok {rest rest' : List UInt8} {offset' : ℕ}
    (h : parseRecord rest offset paths = .ok (rest', offset', paths')) :
    ∃ record : StatusRecord, rest = record.bytes ++ rest' ∧ paths' = record.track paths := by
  unfold parseRecord at h
  split at h
  · cases h
  · rename_i record after hcut
    obtain ⟨rfl, hnul⟩ := cut_eq_some.mp hcut
    have hbytes : ∀ {r : StatusRecord}, r.text = record → r.trailer = [] →
        record ++ 0 :: after = r.bytes ++ after := by
      rintro r rfl htrailer
      simp [StatusRecord.bytes, htrailer]
    simp only at h
    split at h
    · obtain ⟨paths', hparse, h⟩ := bind_ok h
      cases h
      obtain ⟨r, htext, htrailer, hpaths⟩ := parseOrdinary_ok hnul hparse
      exact ⟨r, hbytes htext htrailer, hpaths⟩
    · split at h
      · obtain ⟨paths', hparse, h⟩ := bind_ok h
        obtain ⟨⟨source, left⟩, hsource, h⟩ := bind_ok h
        cases h
        unfold renameSource at hsource
        split at hsource
        · cases hsource
        · rename_i hcut'
          obtain ⟨rfl, hnul'⟩ := cut_eq_some.mp hcut'
          split at hsource
          · cases hsource
          · rename_i hne
            cases hsource
            obtain ⟨r, rfl, htrailer, hpaths⟩ := parseRenamed_ok hnul hparse ⟨source, hne, hnul'⟩
            exact ⟨r, by simp [StatusRecord.bytes, htrailer], hpaths⟩
      · split at h
        · obtain ⟨paths', hparse, h⟩ := bind_ok h
          cases h
          obtain ⟨r, htext, htrailer, hpaths⟩ := parseUnmerged_ok hnul hparse
          exact ⟨r, hbytes htext htrailer, hpaths⟩
        · split at h
          · rename_i htag
            obtain ⟨_, hparse, h⟩ := bind_ok h
            cases h
            obtain ⟨path, hrecord⟩ := parseOtherItem_ok hnul hparse
            rcases htag with htag | htag
            · refine ⟨.untracked path, hbytes ?_ rfl, rfl⟩
              rw [StatusRecord.text_pair _ rfl, hrecord, htag]
              rfl
            · refine ⟨.ignored path, hbytes ?_ rfl, rfl⟩
              rw [StatusRecord.text_pair _ rfl, hrecord, htag]
              rfl
          · split at h
            · rename_i htag
              obtain ⟨_, hparse, h⟩ := bind_ok h
              cases h
              obtain ⟨text, hrecord⟩ := parseHeader_ok hnul hparse
              refine ⟨.header text, hbytes ?_ rfl, rfl⟩
              rw [StatusRecord.text_pair _ rfl, hrecord, htag]
              rfl
            · cases h

/-! ### The whole output

The loop is an induction on the records for one direction, and follows the recursion of the
loop for the other.  The set of paths collected so far is an accumulator, which
`track_union` moves out of the way. -/

/-- The paths that records count, each once however often it occurs. -/
def trackedPaths (records : List StatusRecord) : Finset (List UInt8) :=
  (records.filterMap StatusRecord.trackedPath).toFinset

/-- The paths of one record more are those of the rest, and its own if it counts. -/
theorem trackedPaths_cons (record : StatusRecord) (records : List StatusRecord) :
    trackedPaths (record :: records) = record.track (trackedPaths records) := by
  unfold trackedPaths StatusRecord.track
  cases h : record.trackedPath with
  | none => rw [List.filterMap_cons_none h, Option.elim_none]
  | some path => rw [List.filterMap_cons_some h, Option.elim_some, List.toFinset_cons]

/-- Paths that were counted before do not matter for what a record adds. -/
theorem track_union (record : StatusRecord) (paths paths' : Finset (List UInt8)) :
    record.track paths ∪ paths' = paths ∪ record.track paths' := by
  unfold StatusRecord.track
  cases record.trackedPath with
  | none => rfl
  | some path => simp [Finset.insert_union, Finset.union_insert]

/-- The records of the grammar are read, and their paths collected.  The induction is on the
records, and what is left of the text is the text of the records that are left. -/
theorem parseRecords_bytes (records : List StatusRecord) (offset : ℕ)
    (paths : Finset (List UInt8)) :
    parseRecords (records.flatMap StatusRecord.bytes) offset paths =
      .ok (paths ∪ trackedPaths records).card := by
  induction records generalizing offset paths with
  | nil =>
    rw [List.flatMap_nil, parseRecords, if_pos rfl]
    simp [trackedPaths]
  | cons record records ih =>
    have hne : record.bytes ++ records.flatMap StatusRecord.bytes ≠ [] := by
      simp [StatusRecord.bytes]
    rw [List.flatMap_cons, parseRecords, if_neg hne]
    split
    · rename_i e he
      rw [StatusRecord.parseRecord_bytes] at he
      cases he
    · rename_i he
      rw [StatusRecord.parseRecord_bytes] at he
      cases he
      rw [ih, track_union, trackedPaths_cons]

/-- What the loop reads to its end is a list of records. -/
theorem parseRecords_ok {rest : List UInt8} {n : ℕ} (h : parseRecords rest offset paths = .ok n) :
    ∃ records : List StatusRecord, rest = records.flatMap StatusRecord.bytes := by
  fun_induction parseRecords rest offset paths with
  | case1 => exact ⟨[], by simp⟩
  | case2 => cases h
  | case3 rest offset paths hne rest' offset' paths' hstep ih =>
    obtain ⟨record, rfl, -⟩ := parseRecord_ok hstep
    obtain ⟨records, rfl⟩ := ih h
    exact ⟨record :: records, List.flatMap_cons.symm⟩

/-- **The parser accepts the grammar and counts its tracked paths.**  It succeeds with
`n` exactly when the output is a concatenation of records of which the tracked ones
have `n` distinct paths. -/
theorem parseTrackedChangeCount_iff (output : List UInt8) (n : ℕ) :
    parseTrackedChangeCount output = .ok n ↔
      ∃ records : List StatusRecord, output = records.flatMap StatusRecord.bytes ∧
        n = (trackedPaths records).card := by
  constructor
  · intro h
    obtain ⟨records, rfl⟩ := parseRecords_ok h
    rw [parseTrackedChangeCount, parseRecords_bytes] at h
    exact ⟨records, rfl, by simpa using (Except.ok.inj h).symm⟩
  · rintro ⟨records, rfl, rfl⟩
    rw [parseTrackedChangeCount, parseRecords_bytes, Finset.empty_union]

end Core
end ThinWorkspace
