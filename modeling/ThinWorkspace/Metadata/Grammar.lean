/-
# One grammar for stored text

Sources: `crates/thinws-core/src/workspace_name.rs`, `id.rs` and `volume.rs` for the
parsers, `crates/thinws-metadata-sqlite/src/schema_v2.sql` for the `CHECK`s.  A
`CHECK` is written with `length`, `substr`, `instr`, `replace` and `GLOB` on
characters, a parser with loops over bytes; each pair accepts the same texts, and
what a parser returns prints as the text it was given (`SameGrammar`).

The hexadecimal columns go through the five groups of a UUID
(`checkUuidShape_iff`), the names through the fact that the characters a name may
have are those whose bytes are its own (`isAllowed_utf8EncodeChar`).
-/

import ThinWorkspace.Lib.Except
import ThinWorkspace.Metadata.Schema
import ThinWorkspace.Core.Id
import ThinWorkspace.Core.Name

namespace ThinWorkspace
namespace Metadata

open ThinWorkspace.Core Lib

/-! ### One grammar

`SameGrammar` is the agreement of a column with the type of the program: the `CHECK` and the
parser accept the same texts, and the printer gives an accepted text back.  A text may then
move between the two without being refused, or changed, by the other. -/

/-- A `CHECK` and a parser that accept the same texts, with a printer that gives each
accepted text back. -/
structure SameGrammar {T : Type} (check : String → Bool) (parse : String → Option T)
    (print : T → String) : Prop where
  accepts : ∀ s, check s = true ↔ ∃ value, parse s = some value
  prints : ∀ s value, parse s = some value → print value = s

/-- A parser that accepts exactly what the printer prints shares the grammar of a check
that does. -/
theorem SameGrammar.of_prints {T : Type} {check : String → Bool} {parse : String → Option T}
    {print : T → String} (hcheck : ∀ s, check s = true ↔ ∃ value, print value = s)
    (hparse : ∀ s value, parse s = some value ↔ print value = s) :
    SameGrammar check parse print := by
  refine ⟨fun s => ?_, fun s value h => (hparse s value).mp h⟩
  rw [hcheck]
  exact exists_congr fun value => (hparse s value).symm

/-- A result has a value exactly if it succeeded with it. -/
theorem toOption_eq_some {ε α : Type} {x : Except ε α} {a : α} :
    x.toOption = some a ↔ x = .ok a := by
  cases x <;> simp [Except.toOption]

/-! ### Hexadecimal digits

A `GLOB` bracket is a range of code points, while the printer has a table of sixteen
characters.  The two agree digit by digit. -/

/-- The code points of the hexadecimal digits: the figures from 48 on, and the letters from 97 on.
-/
theorem toNat_hexDigit :
    ∀ d, (hexDigit d).toNat = if d.val < 10 then 48 + d.val else 87 + d.val := by
  decide

/-- The digits of the canonical text, as a bracket expression.  A code in one of the two ranges is
that of the digit it is away from the beginning of its range. -/
theorem inRanges_hex {c : Char} :
    Sql.inRanges [('0', '9'), ('a', 'f')] c = true ↔ ∃ d, hexDigit d = c := by
  constructor
  · intro h
    have hrange : 48 ≤ c.toNat ∧ c.toNat ≤ 57 ∨ 97 ≤ c.toNat ∧ c.toNat ≤ 102 := by
      simpa [Sql.inRanges, Char.le_def, UInt32.le_iff_toNat_le] using h
    have hcode : ∃ d : Fin 16, (hexDigit d).toNat = c.toNat := by
      rcases hrange with ⟨hlow, hhigh⟩ | ⟨hlow, hhigh⟩
      · refine ⟨⟨c.toNat - 48, by omega⟩, ?_⟩
        rw [toNat_hexDigit, if_pos (by show c.toNat - 48 < 10; omega)]
        show 48 + (c.toNat - 48) = c.toNat
        omega
      · refine ⟨⟨c.toNat - 87, by omega⟩, ?_⟩
        rw [toNat_hexDigit, if_neg (by show ¬c.toNat - 87 < 10; omega)]
        show 87 + (c.toNat - 87) = c.toNat
        omega
    obtain ⟨d, hd⟩ := hcode
    exact ⟨d, Char.toNat_inj.mp hd⟩
  · rintro ⟨d, rfl⟩
    revert d
    decide

/-- Characters that are all digits are the digits of some values. -/
theorem exists_map_hexDigit {cs : List Char} (h : ∀ c ∈ cs, ∃ d, hexDigit d = c) :
    ∃ ds : List (Fin 16), ds.map hexDigit = cs := by
  induction cs with
  | nil => exact ⟨[], rfl⟩
  | cons c cs ih =>
    obtain ⟨d, hd⟩ := h c List.mem_cons_self
    obtain ⟨ds, hds⟩ := ih fun c hc => h c (List.mem_cons_of_mem _ hc)
    exact ⟨d :: ds, by rw [List.map_cons, hd, hds]⟩

/-! ### UUID columns

The shape of a UUID column says where the hyphens are and that nothing else but digits
occurs.  A text of this shape is five groups of digits, and these are the text of a UUID
(`checkUuidShape_iff`), which is where the SQL functions meet the printer. -/

/-- A text of 36 characters in the five groups of a UUID. -/
theorem exists_groups {cs : List Char} (hlength : cs.length = 36) (h8 : cs[8]? = some '-')
    (h13 : cs[13]? = some '-') (h18 : cs[18]? = some '-') (h23 : cs[23]? = some '-') :
    ∃ a b c d e : List Char, a.length = 8 ∧ b.length = 4 ∧ c.length = 4 ∧ d.length = 4 ∧
      e.length = 12 ∧ cs = a ++ '-' :: (b ++ '-' :: (c ++ '-' :: (d ++ '-' :: e))) := by
  have hcut : ∀ (k : ℕ) (l : List Char), l[k]? = some '-' →
      l = l.take k ++ '-' :: l.drop (k + 1) := by
    intro k l hk
    obtain ⟨hlt, hget⟩ := List.getElem?_eq_some_iff.mp hk
    conv_lhs => rw [← List.take_append_drop k l, List.drop_eq_getElem_cons hlt, hget]
  refine ⟨cs.take 8, (cs.drop 9).take 4, (cs.drop 14).take 4, (cs.drop 19).take 4, cs.drop 24,
    ?_, ?_, ?_, ?_, ?_, ?_⟩
  any_goals simp [hlength]
  have hb := hcut 4 (cs.drop 9) (by rw [List.getElem?_drop]; exact h13)
  have hc := hcut 4 (cs.drop 14) (by rw [List.getElem?_drop]; exact h18)
  have hd := hcut 4 (cs.drop 19) (by rw [List.getElem?_drop]; exact h23)
  rw [List.drop_drop] at hb hc hd
  conv_lhs => rw [hcut 8 cs h8, hb, hc, hd]

/-- What is left of the groups without the hyphens. -/
theorem filter_groups (a b c d e : List Char) :
    (a ++ '-' :: (b ++ '-' :: (c ++ '-' :: (d ++ '-' :: e)))).filter (· ≠ '-') =
      (a ++ (b ++ (c ++ (d ++ e)))).filter (· ≠ '-') := by
  simp

/-- The text of a UUID has no NUL, at which `length` would stop. -/
theorem nul_notMem_hyphenatedChars (u : Uuid) : Char.ofNat 0 ∉ u.hyphenatedChars := by
  intro h
  rcases Uuid.mem_hyphenatedChars h with h | ⟨d, h⟩
  · exact absurd h (by decide)
  · exact absurd h (by revert d; decide)

/-- `replace(s, c, '')` leaves the characters other than `c`. -/
theorem toList_remove (s : String) (c : Char) :
    (Sql.remove s c).toList = s.toList.filter (· ≠ c) := by
  rw [Sql.remove, String.toList_ofList]

/-- What the shape of a UUID column says of the characters.  The conjuncts of the `CHECK` are taken
one by one: the length, the four hyphens, no NUL, and what is left when the hyphens are removed. -/
theorem checkUuidShape_chars {s : String} :
    checkUuidShape 0 s = true ↔ s.toList.length = 36 ∧
      (s.toList[8]? = some '-' ∧ s.toList[13]? = some '-' ∧ s.toList[18]? = some '-' ∧
        s.toList[23]? = some '-') ∧ Char.ofNat 0 ∉ s.toList ∧
      (s.toList.filter (· ≠ '-')).length = 32 ∧
      ∀ c ∈ s.toList.filter (· ≠ '-'), ∃ d, hexDigit d = c := by
  have hhyphen : ("-" : String) = String.singleton '-' := by decide
  by_cases hnul : Char.ofNat 0 ∈ s.toList
  · have hcontains := Sql.contains_singleton.mpr hnul
    constructor
    · intro h
      simp only [checkUuidShape, hcontains, Bool.not_true, Bool.and_false, Bool.false_and] at h
      cases h
    · rintro ⟨-, -, h, -⟩
      exact absurd hnul h
  · have hcontains : Sql.contains s (String.singleton (Char.ofNat 0)) = false :=
      Bool.eq_false_iff.mpr fun h => hnul (Sql.contains_singleton.mp h)
    have hleft : Char.ofNat 0 ∉ (Sql.remove s '-').toList := fun h =>
      hnul (List.mem_of_mem_filter (toList_remove s '-' ▸ h))
    have hglob : Sql.glob (Sql.remove s '-') notHexGlob = false ↔
        ∀ c ∈ s.toList.filter (· ≠ '-'), ∃ d, hexDigit d = c := by
      rw [Bool.eq_false_iff, notHexGlob, ne_eq, Sql.glob_noneOf, toList_remove]
      simp only [not_exists, not_and, Bool.not_eq_false, inRanges_hex]
    simp only [checkUuidShape, List.drop_zero, String.ofList_toList, Bool.and_eq_true,
      beq_iff_eq, Nat.zero_add, Sql.length_eq hnul, Sql.length_eq hleft, hcontains, hhyphen,
      Sql.substr_eq_singleton, Bool.not_false, Bool.not_eq_true', hglob, toList_remove, hnul,
      not_false_eq_true, and_assoc, true_and]

/-- **The shape of a UUID column** is the canonical text of a UUID. The four hyphens split the text
into five groups, and the 32 characters without them are the digits of the UUID. -/
theorem checkUuidShape_iff {s : String} :
    checkUuidShape 0 s = true ↔ ∃ u : Uuid, u.hyphenated = s := by
  rw [checkUuidShape_chars]
  constructor
  · rintro ⟨hlength, ⟨h8, h13, h18, h23⟩, -, hcount, hdigits⟩
    obtain ⟨a, b, c, d, e, ha, hb, hc, hd, he, hs⟩ := exists_groups hlength h8 h13 h18 h23
    rw [hs, filter_groups] at hcount hdigits
    have hplain : (a ++ (b ++ (c ++ (d ++ e)))).filter (· ≠ '-') = a ++ (b ++ (c ++ (d ++ e))) := by
      refine List.filter_sublist.eq_of_length ?_
      rw [hcount]
      simp [ha, hb, hc, hd, he]
    rw [hplain] at hcount hdigits
    obtain ⟨ds, hds⟩ := exists_map_hexDigit hdigits
    have hdslength : ds.length = 32 := by rw [← hcount, ← hds, List.length_map]
    refine ⟨⟨ds, hdslength⟩, ?_⟩
    rw [← String.toList_inj, Uuid.hyphenated, String.toList_ofList, hs]
    simp [Uuid.hyphenatedChars, List.map_take, List.map_drop, hds, List.drop_append, ha, hb, hc, hd,
      List.drop_eq_nil_of_le]
  · rintro ⟨u, rfl⟩
    obtain ⟨a, b, c, d, e, ha, hb, hc, hd, he, hu⟩ := u.digits_groups
    have ht := Uuid.hyphenatedChars_groups ha hb hc hd hu
    rw [Uuid.hyphenated, String.toList_ofList]
    refine ⟨u.length_hyphenatedChars, ?_, nul_notMem_hyphenatedChars u, ?_, fun c hc => ?_⟩
    · refine ⟨?_, ?_, ?_, ?_⟩ <;> simp [ht, List.getElem?_append, ha, hb, hc, hd]
    · rw [ht, filter_groups, List.filter_eq_self.mpr]
      · simp [ha, hb, hc, hd, he]
      · intro c hc
        simp only [← List.map_append] at hc
        obtain ⟨d, -, rfl⟩ := List.mem_map.mp hc
        exact decide_eq_true (hexDigit_ne_hyphen d)
    · obtain ⟨hmem, hne⟩ := List.mem_filter.mp hc
      rcases Uuid.mem_hyphenatedChars hmem with rfl | ⟨d, rfl⟩
      · exact absurd rfl (of_decide_eq_true hne)
      · exact ⟨d, rfl⟩

/-! ### Version 7

Version and variant are two characters of the text for the column, and two digits of the
value for the parser.  `hyphenatedChars_digits` says at which places of the text the two
digits stand. -/

/-- A version 7 value has the version 7 and the variant of RFC 4122. -/
theorem isV7_iff {u : Uuid} : u.IsV7 ↔ u.versionNum = 7 ∧ u.isRfc4122 = true := by
  unfold Uuid.IsV7 validateUuidV7
  by_cases h7 : u.versionNum = 7 <;> cases hv : u.isRfc4122 <;> simp [h7]

/-- Where the version digit and the variant digit stand in the canonical text. -/
theorem hyphenatedChars_digits (u : Uuid) :
    u.hyphenatedChars[14]? = some (hexDigit (u.digits.getD 12 0)) ∧
      u.hyphenatedChars[19]? = some (hexDigit (u.digits.getD 16 0)) := by
  obtain ⟨a, b, c, d, e, ha, hb, hc, hd, he, hu⟩ := u.digits_groups
  rw [Uuid.hyphenatedChars_groups ha hb hc hd hu, hu]
  constructor <;> simp [List.getElem?_append, ha, hb, hc, hd]

/-- The digit `7` is that of the version 7. -/
theorem hexDigit_version : ∀ d : Fin 16, hexDigit d = '7' ↔ d.val = 7 := by decide

/-- The digits `8`, `9`, `a` and `b` are those of the variant. -/
theorem hexDigit_variant : ∀ d : Fin 16,
    (hexDigit d = '8' ∨ hexDigit d = '9' ∨ hexDigit d = 'a' ∨ hexDigit d = 'b') ↔
      d.val / 4 = 2 := by
  decide

/-- **The version columns** pick out the version 7 values. -/
theorem checkUuidV7_hyphenated (u : Uuid) : checkUuidV7 0 u.hyphenated = true ↔ u.IsV7 := by
  have htext : u.hyphenated.toList = u.hyphenatedChars := String.toList_ofList
  have hchar : ∀ c : Char, ∀ t : String, t = String.singleton c →
      (Sql.substr u.hyphenated 20 1 = t ↔ hexDigit (u.digits.getD 16 0) = c) := by
    rintro c t rfl
    rw [Sql.substr_eq_singleton, htext, (hyphenatedChars_digits u).2, Option.some_inj]
  have hseven : ("7" : String) = String.singleton '7' := by decide
  simp only [checkUuidV7, Bool.and_eq_true, beq_iff_eq, List.contains_cons, List.contains_nil,
    Bool.or_eq_true, Bool.or_false, Nat.zero_add]
  rw [hseven, Sql.substr_eq_singleton, htext, (hyphenatedChars_digits u).1, Option.some_inj,
    hchar '8' "8" (by decide), hchar '9' "9" (by decide), hchar 'a' "a" (by decide),
    hchar 'b' "b" (by decide), hexDigit_version, hexDigit_variant, isV7_iff, Uuid.versionNum,
    Uuid.isRfc4122, beq_iff_eq]

/-! ### The parsers

A parser that accepts the canonical text only accepts exactly what its printer prints; each
of these lemmas says so of one of the parsers. -/

/-- What a parser of a volume identity accepts is what prints as the text. -/
theorem VolumeId.fromText_eq_some {s : String} {id : VolumeId} :
    VolumeId.fromText s = some id ↔ id.toText = s := by
  constructor
  · intro h
    unfold VolumeId.fromText at h
    split at h
    · cases h
    · split at h
      · cases h
      · rename_i hs
        cases h
        exact of_not_not hs
  · rintro rfl
    exact VolumeId.fromText_toText id

/-- What the parser of a version 7 value accepts is what prints as the text.  The parser reads the
text and prints it again, so what it accepts is what prints as the text. -/
theorem UuidV7.fromText_eq_ok {s : String} {id : UuidV7} :
    UuidV7.fromText s = .ok id ↔ id.toText = s := by
  constructor
  · intro h
    obtain ⟨u, hparse, htry⟩ := Fallible.bind_ok h
    have hid : u = id.asUuid := by
      unfold UuidV7.tryFrom at htry
      split at htry
      · cases htry
        rfl
      · obtain ⟨_, _, he⟩ := Fallible.bind_ok htry
        cases he
    unfold parseUuidV7 at hparse
    split at hparse
    · cases hparse
    · split at hparse
      · cases hparse
      · rename_i hs
        obtain ⟨-, -, rfl⟩ := Fallible.map_ok hparse
        rw [UuidV7.toText, ← hid]
        exact of_not_not hs
  · rintro rfl
    exact UuidV7.fromText_toText id

/-- What the parser behind a type prefix accepts is what prints as the text, its prefix included.
-/
theorem fromPrefixedText_eq_ok {p s : String} {id : UuidV7} :
    fromPrefixedText p s = .ok id ↔ p ++ id.toText = s := by
  constructor
  · intro h
    unfold fromPrefixedText at h
    split at h
    · cases h
    · rename_i payload hstrip
      obtain ⟨chars, hchars, rfl⟩ := Option.map_eq_some_iff.mp hstrip
      rw [UuidV7.fromText_eq_ok.mp h, ← String.toList_inj, String.toList_append,
        String.toList_ofList]
      exact List.isPrefixOf?_eq_some_iff_append_eq.mp hchars
  · rintro rfl
    exact fromPrefixedText_append p id

/-- What the parser of a workspace identity accepts is what prints as the text. -/
theorem WorkspaceId.fromText_eq_ok {s : String} {id : WorkspaceId} :
    WorkspaceId.fromText s = .ok id ↔ id.toText = s := by
  constructor
  · intro h
    obtain ⟨uuid, hparse, rfl⟩ := Fallible.map_ok h
    exact fromPrefixedText_eq_ok.mp hparse
  · rintro rfl
    exact WorkspaceId.fromText_toText id

/-- The name a text is accepted as is the text. -/
theorem WorkspaceName.tryFrom_eq_ok {s : String} {name : WorkspaceName} :
    WorkspaceName.tryFrom s = .ok name ↔ name.asStr = s := by
  constructor
  · intro h
    unfold WorkspaceName.tryFrom at h
    split at h
    · cases h
    · cases h
      rfl
  · rintro rfl
    exact WorkspaceName.tryFrom_asStr name

/-! ### Identities

The columns of identities, each with its prefix: none, or `ws_`.  The prefix shifts the
places the schema looks at, which is the offset of `checkUuidShape`. -/

/-- **Volume identities**: the `CHECK` of the column and the parser accept the same texts. -/
theorem checkVolumeId_grammar : SameGrammar checkVolumeId VolumeId.fromText VolumeId.toText := by
  refine .of_prints (fun s => ?_) fun s id => VolumeId.fromText_eq_some
  rw [checkVolumeId, checkUuidShape_iff]
  constructor
  · rintro ⟨u, hu⟩
    exact ⟨⟨u⟩, hu⟩
  · rintro ⟨id, hid⟩
    exact ⟨id.asUuid, hid⟩

/-- The `CHECK` of an instance identity accepts exactly the texts of instance identities. -/
theorem checkInstanceId_iff {s : String} :
    checkInstanceId s = true ↔ ∃ id : InstanceId, id.toText = s := by
  rw [checkInstanceId, Bool.and_eq_true, checkUuidShape_iff]
  constructor
  · rintro ⟨⟨u, rfl⟩, hv7⟩
    exact ⟨⟨u, (checkUuidV7_hyphenated u).mp hv7⟩, rfl⟩
  · rintro ⟨id, rfl⟩
    exact ⟨⟨id.asUuid, rfl⟩, (checkUuidV7_hyphenated id.asUuid).mpr id.isV7⟩

/-- **Instance identities**: the `CHECK` of the column and the parser accept the same texts. -/
theorem checkInstanceId_grammar :
    SameGrammar checkInstanceId (fun s => (UuidV7.fromText s).toOption) UuidV7.toText :=
  .of_prints (fun _ => checkInstanceId_iff) fun _ _ => toOption_eq_some.trans UuidV7.fromText_eq_ok

/-- The columns behind a type prefix are checked as without it.  Every position in the two
conditions is counted from the offset, so three characters in front move all of them alike. -/
theorem checkUuid_append (t : String) :
    checkUuidShape 3 ("ws_" ++ t) = checkUuidShape 0 t ∧
      checkUuidV7 3 ("ws_" ++ t) = checkUuidV7 0 t := by
  have hsubstr : ∀ i n, Sql.substr ("ws_" ++ t) (3 + (i + 1)) n = Sql.substr t (i + 1) n :=
    Sql.substr_append "ws_" t
  have hws : ("ws_" : String).toList = ['w', 's', '_'] := by decide
  have hlength : (Sql.length ("ws_" ++ t) == 3 + 36) = (Sql.length t == 0 + 36) := by
    have hcount : Sql.length ("ws_" ++ t) = Sql.length t + 3 := by
      rw [Sql.length, String.toList_append, hws]
      simp [Sql.length]
    rw [hcount, Bool.eq_iff_iff, beq_iff_eq, beq_iff_eq]
    omega
  have hcontains : Sql.contains ("ws_" ++ t) (String.singleton (Char.ofNat 0)) =
      Sql.contains t (String.singleton (Char.ofNat 0)) := by
    rw [Bool.eq_iff_iff, Sql.contains_singleton, Sql.contains_singleton, String.toList_append,
      List.mem_append]
    exact or_iff_right (by decide)
  have hdrop : ("ws_" ++ t).toList.drop 3 = t.toList := by
    rw [String.toList_append, hws]
    rfl
  constructor
  · simp only [checkUuidShape, hlength, hcontains, hdrop, hsubstr, List.drop_zero, Nat.zero_add]
  · simp only [checkUuidV7, hsubstr, Nat.zero_add]

/-- **Workspace identities**: the `CHECK` of the column and the parser accept the same texts.  The
prefix is taken off, and the rest is the grammar of the instance identifiers. -/
theorem checkWorkspaceId_grammar :
    SameGrammar checkWorkspaceId (fun s => (WorkspaceId.fromText s).toOption)
      WorkspaceId.toText := by
  refine .of_prints (fun s => ?_) fun _ _ => toOption_eq_some.trans WorkspaceId.fromText_eq_ok
  have hbegin : Sql.substr s 1 3 = "ws_" ↔ ∃ t, s = "ws_" ++ t := by
    have hlength : ("ws_" : String).toList.length = 3 := by decide
    rw [← hlength]
    exact Sql.substr_one_eq
  rw [checkWorkspaceId, Bool.and_eq_true, Bool.and_eq_true, beq_iff_eq, hbegin]
  constructor
  · rintro ⟨⟨hshape, t, rfl⟩, hv7⟩
    rw [(checkUuid_append t).1] at hshape
    rw [(checkUuid_append t).2] at hv7
    obtain ⟨id, hid⟩ := checkInstanceId_iff.mp (by rw [checkInstanceId, hshape, hv7]; rfl)
    exact ⟨⟨id⟩, by rw [WorkspaceId.toText, hid]⟩
  · rintro ⟨id, rfl⟩
    have hcheck := checkInstanceId_iff.mpr ⟨id.uuid, rfl⟩
    rw [checkInstanceId, Bool.and_eq_true] at hcheck
    rw [WorkspaceId.toText, (checkUuid_append _).1, (checkUuid_append _).2]
    exact ⟨⟨hcheck.1, _, rfl⟩, hcheck.2⟩

/-! ### Names

The column counts characters and the parser counts bytes.  They agree because every
character of a name is ASCII: such a character is one byte, and any other character has a
byte that no name has (`isAllowed_asBytes`).  The rest is the comparison of two ranges, at
the ends and in the middle, and of two dots in a row. -/

/-- What `validate_workspace_name` asks of the bytes, as one condition without an order.  The
checks of the source come one after another with an early return each; here they are one
conjunction. -/
theorem validateWorkspaceName_iff {value : String} :
    validateWorkspaceName value = .ok () ↔ asBytes value ≠ [] ∧
      (asBytes value).length ≤ maxWorkspaceNameLen ∧ (asBytes value).head?.any isBoundary = true ∧
      (asBytes value).getLast?.any isBoundary = true ∧ (∀ b ∈ asBytes value, isAllowed b = true) ∧
      hasConsecutiveDots (asBytes value) = false := by
  unfold validateWorkspaceName
  by_cases hempty : asBytes value = []
  · simp [hempty]
  · by_cases hlength : (asBytes value).length > maxWorkspaceNameLen
    · simp only [hempty, if_false, hlength, if_true]
      constructor
      · intro h; cases h
      · rintro ⟨-, h, -⟩
        omega
    · have hle : (asBytes value).length ≤ maxWorkspaceNameLen := by omega
      simp only [hempty, if_false, hlength, hle, ne_eq, not_false_eq_true, true_and]
      cases hhead : (asBytes value).head?.any isBoundary
      · simp
      · cases hlast : (asBytes value).getLast?.any isBoundary
        · simp
        · cases hfind : (asBytes value).findIdx? fun byte => !isAllowed byte with
          | some index =>
            obtain ⟨hindex, hnot, -⟩ := List.findIdx?_eq_some_iff_getElem.mp hfind
            constructor
            · intro h
              cases h
            · rintro ⟨-, -, hall, -⟩
              rw [hall _ (List.getElem_mem hindex)] at hnot
              cases hnot
          | none =>
            have hall : ∀ b ∈ asBytes value, isAllowed b = true := by
              simpa using List.findIdx?_eq_none_iff.mp hfind
            cases hdots : hasConsecutiveDots (asBytes value)
            · simpa using hall
            · simp

/-- The byte of an ASCII character, which is its only one. -/
def asciiByte (c : Char) : UInt8 := c.val.toUInt8

/-- The characters of a name, as a bracket expression. -/
abbrev nameRanges : List (Char × Char) :=
  [('a', 'z'), ('0', '9'), ('.', '.'), ('_', '_'), ('-', '-')]

/-- That byte is the code point, which is less than 128. -/
theorem toNat_asciiByte {c : Char} (h : c.toNat < 128) : (asciiByte c).toNat = c.toNat := by
  rw [asciiByte, UInt32.toNat_toUInt8]
  exact Nat.mod_eq_of_lt (by show c.toNat < 256; omega)

/-- An ASCII character is encoded as that byte and nothing else. -/
theorem utf8EncodeChar_ascii {c : Char} (h : c.toNat < 128) :
    String.utf8EncodeChar c = [asciiByte c] := by
  refine String.utf8EncodeChar_eq_singleton ?_
  rw [Char.utf8Size_eq_one_iff, UInt32.le_iff_toNat_le]
  exact Nat.le_of_lt_succ h

/-- The characters of a name, by their code points. -/
theorem inRanges_name {c : Char} : Sql.inRanges nameRanges c = true ↔
    (97 ≤ c.toNat ∧ c.toNat ≤ 122) ∨ (48 ≤ c.toNat ∧ c.toNat ≤ 57) ∨ c.toNat = 46 ∨
      c.toNat = 95 ∨ c.toNat = 45 := by
  simp only [Sql.inRanges, List.any_cons, List.any_nil, Bool.or_false, Bool.or_eq_true,
    Bool.and_eq_true, decide_eq_true_eq, Char.le_def, UInt32.le_iff_toNat_le]
  show (97 ≤ c.toNat ∧ c.toNat ≤ 122) ∨ (48 ≤ c.toNat ∧ c.toNat ≤ 57) ∨
    (46 ≤ c.toNat ∧ c.toNat ≤ 46) ∨ (95 ≤ c.toNat ∧ c.toNat ≤ 95) ∨
    (45 ≤ c.toNat ∧ c.toNat ≤ 45) ↔ _
  omega

/-- The characters at the ends of a name, by their code points. -/
theorem inRanges_boundary {c : Char} : Sql.inRanges [('a', 'z'), ('0', '9')] c = true ↔
    (97 ≤ c.toNat ∧ c.toNat ≤ 122) ∨ (48 ≤ c.toNat ∧ c.toNat ≤ 57) := by
  simp only [Sql.inRanges, List.any_cons, List.any_nil, Bool.or_false, Bool.or_eq_true,
    Bool.and_eq_true, decide_eq_true_eq, Char.le_def, UInt32.le_iff_toNat_le]
  exact Iff.rfl

/-- The bytes at the ends of a name, which are the same numbers. -/
theorem isBoundary_iff {b : UInt8} : isBoundary b = true ↔
    (97 ≤ b.toNat ∧ b.toNat ≤ 122) ∨ (48 ≤ b.toNat ∧ b.toNat ≤ 57) := by
  simp only [isBoundary, Bool.or_eq_true, Bool.and_eq_true, decide_eq_true_eq,
    UInt8.le_iff_toNat_le]
  exact Iff.rfl

/-- The bytes of a name, which are the same numbers. -/
theorem isAllowed_iff {b : UInt8} : isAllowed b = true ↔
    (97 ≤ b.toNat ∧ b.toNat ≤ 122) ∨ (48 ≤ b.toNat ∧ b.toNat ≤ 57) ∨ b.toNat = 46 ∨
      b.toNat = 95 ∨ b.toNat = 45 := by
  simp only [isAllowed, Bool.or_eq_true, isBoundary_iff, beq_iff_eq, ← UInt8.toNat_inj]
  show ((((_ ∧ _) ∨ (_ ∧ _)) ∨ b.toNat = 46) ∨ b.toNat = 95) ∨ b.toNat = 45 ↔ _
  omega

/-- The characters of a name are ASCII, so a name has as many bytes as characters. -/
theorem lt_of_inRanges {c : Char} (h : Sql.inRanges nameRanges c = true) : c.toNat < 128 := by
  have hrange := inRanges_name.mp h
  omega

/-- A byte behind the first of a longer encoding is none of a name. -/
theorem not_isAllowed_continuation (b : UInt8) : isAllowed (b ||| 0x80) = false := by
  have hhigh : 128 ≤ (b ||| 0x80).toNat := by
    rw [UInt8.toNat_or]
    exact Nat.right_le_or
  rw [Bool.eq_false_iff, ne_eq, isAllowed_iff]
  omega

/-- **The characters of a name** are those whose bytes are.  A character of one byte is that byte,
and one of more bytes has a first byte outside the alphabet. -/
theorem isAllowed_utf8EncodeChar {c : Char} :
    (∀ b ∈ String.utf8EncodeChar c, isAllowed b = true) ↔ Sql.inRanges nameRanges c = true := by
  have hrange : Char.utf8Size c = 1 ∨ c.utf8Size = 2 ∨ c.utf8Size = 3 ∨ c.utf8Size = 4 := by
    have hpos := c.utf8Size_pos
    have hle := c.utf8Size_le_four
    omega
  rcases hrange with hsize | hsize | hsize | hsize
  · have hascii : c.toNat < 128 := by
      rw [Char.utf8Size_eq_one_iff, UInt32.le_iff_toNat_le] at hsize
      exact Nat.lt_succ_of_le hsize
    rw [utf8EncodeChar_ascii hascii, List.forall_mem_singleton, isAllowed_iff, inRanges_name,
      toNat_asciiByte hascii]
  all_goals
    have hlong : ¬c.toNat < 128 := fun hascii => by
      have hone : c.utf8Size = 1 := by
        rw [Char.utf8Size_eq_one_iff, UInt32.le_iff_toNat_le]
        exact Nat.le_of_lt_succ hascii
      omega
    refine ⟨fun h => ?_, fun h => absurd (lt_of_inRanges h) hlong⟩
    first
    | rw [String.utf8EncodeChar_eq_cons_cons hsize] at h
    | rw [String.utf8EncodeChar_eq_cons_cons_cons hsize] at h
    | rw [String.utf8EncodeChar_eq_cons_cons_cons_cons hsize] at h
    have hlast := h (c.val.toUInt8 &&& 0x3f ||| 0x80) (by simp)
    rw [not_isAllowed_continuation] at hlast
    cases hlast

/-- A text has allowed bytes only exactly if it has allowed characters only, since other characters
have bytes outside of ASCII. -/
theorem isAllowed_asBytes {s : String} :
    (∀ b ∈ asBytes s, isAllowed b = true) ↔ ∀ c ∈ s.toList, Sql.inRanges nameRanges c = true := by
  have hbytes : asBytes s = s.toList.flatMap String.utf8EncodeChar := by
    rw [← asBytes_ofList, String.ofList_toList]
  simp only [hbytes, List.mem_flatMap, ← isAllowed_utf8EncodeChar]
  exact ⟨fun h c hc b hb => h b ⟨c, hc, hb⟩, fun h b ⟨c, hc, hb⟩ => h c hc b hb⟩

/-- The bytes of a text of name characters are one for each. -/
theorem asBytes_of_inRanges {s : String}
    (h : ∀ c ∈ s.toList, Sql.inRanges nameRanges c = true) :
    asBytes s = s.toList.map asciiByte := by
  have hbytes : asBytes s = s.toList.flatMap String.utf8EncodeChar := by
    rw [← asBytes_ofList, String.ofList_toList]
  rw [hbytes, List.flatMap_congr fun c hc => utf8EncodeChar_ascii (lt_of_inRanges (h c hc))]
  exact List.map_eq_flatMap.symm

/-- A character may stand at an end of a name exactly if its byte may. -/
theorem isBoundary_asciiByte {c : Char} (h : c.toNat < 128) :
    isBoundary (asciiByte c) = Sql.inRanges [('a', 'z'), ('0', '9')] c := by
  rw [Bool.eq_iff_iff, isBoundary_iff, inRanges_boundary, toNat_asciiByte h]

/-- Two dots in a row, in the bytes and in the text.  The induction is on the characters, with the
first two of them looked at in each step. -/
theorem hasConsecutiveDots_map {cs : List Char} (h : ∀ c ∈ cs, c.toNat < 128) :
    hasConsecutiveDots (cs.map asciiByte) =
      cs.tails.any fun suffix => ['.', '.'].isPrefixOf suffix := by
  have hdot : ∀ c : Char, c.toNat < 128 → (asciiByte c == 46) = ('.' == c) := by
    intro c hc
    rw [Bool.eq_iff_iff, beq_iff_eq, beq_iff_eq, ← UInt8.toNat_inj, toNat_asciiByte hc,
      ← Char.toNat_inj]
    exact eq_comm
  induction cs with
  | nil => rfl
  | cons c cs ih =>
    have ih := ih fun d hd => h d (List.mem_cons_of_mem _ hd)
    cases cs with
    | nil => simp [hasConsecutiveDots, List.isPrefixOf]
    | cons d cs =>
      have hc := hdot c (h c (by simp))
      have hd := hdot d (h d (by simp))
      rw [List.map_cons, List.map_cons, hasConsecutiveDots, ← List.map_cons, ih, hc, hd,
        List.tails_cons c (d :: cs), List.any_cons]
      simp [List.isPrefixOf]

/-- A text of name characters has no NUL, which is none of these characters. -/
theorem nul_notMem_of_inRanges {s : String}
    (h : ∀ c ∈ s.toList, Sql.inRanges nameRanges c = true) : Char.ofNat 0 ∉ s.toList :=
  fun hmem => absurd (h _ hmem) (by decide)

/-- The first or last character of a text as a column checks it. -/
theorem glob_boundary {found : Option Char} (h : ∀ c ∈ found, c.toNat < 128) {t : String}
    (ht : t.toList = found.toList) :
    Sql.glob t boundaryGlob = (found.map asciiByte).any isBoundary := by
  rw [Bool.eq_iff_iff, boundaryGlob, Sql.glob_oneOf, ht]
  cases found with
  | none => simp
  | some c =>
    rw [Option.map_some, Option.any_some, isBoundary_asciiByte (h c rfl), Option.toList_some]
    constructor
    · rintro ⟨d, hd, hrange⟩
      rwa [(List.cons.inj hd).1]
    · exact fun hrange => ⟨c, rfl, hrange⟩

/-- The `CHECK` of a name accepts exactly the texts of names.  Where all characters are in the
alphabet they are ASCII, so the positions of the characters are those of the bytes; where one is
not, both conditions fail. -/
theorem checkName_iff {s : String} :
    checkName s = true ↔ ∃ name : WorkspaceName, name.asStr = s := by
  have hname : (∃ name : WorkspaceName, name.asStr = s) ↔ validateWorkspaceName s = .ok () :=
    ⟨fun ⟨name, hname⟩ => hname ▸ name.valid, fun h => ⟨⟨s, h⟩, rfl⟩⟩
  rw [hname, validateWorkspaceName_iff, isAllowed_asBytes]
  have hglob : Sql.glob s notNameGlob = false ↔
      ∀ c ∈ s.toList, Sql.inRanges nameRanges c = true := by
    rw [Bool.eq_false_iff, notNameGlob, ne_eq, Sql.glob_noneOf]
    simp only [not_exists, not_and, Bool.not_eq_false]
  by_cases hall : ∀ c ∈ s.toList, Sql.inRanges nameRanges c = true
  · have hascii : ∀ c ∈ s.toList, c.toNat < 128 := fun c hc => lt_of_inRanges (hall c hc)
    have hnul : Sql.contains s (String.singleton (Char.ofNat 0)) = false :=
      Bool.eq_false_iff.mpr fun h =>
        nul_notMem_of_inRanges hall (Sql.contains_singleton.mp h)
    have hdots : Sql.contains s ".." = hasConsecutiveDots (s.toList.map asciiByte) :=
      (hasConsecutiveDots_map hascii).symm
    have hfirst : Sql.glob (Sql.substr s 1 1) boundaryGlob =
        (s.toList.map asciiByte).head?.any isBoundary := by
      rw [List.head?_map]
      refine glob_boundary (fun c hc => hascii c (List.mem_of_mem_head? hc)) ?_
      rw [Sql.substr, String.toList_ofList]
      cases s.toList <;> rfl
    have hlast : Sql.glob (Sql.substrLast s) boundaryGlob =
        (s.toList.map asciiByte).getLast?.any isBoundary := by
      rw [List.getLast?_map]
      refine glob_boundary (fun c hc => hascii c (List.mem_of_getLast? hc)) ?_
      rw [Sql.substrLast, String.toList_ofList]
    have hempty : s.toList.map asciiByte ≠ [] ↔ 1 ≤ s.toList.length := by
      rw [ne_eq, List.map_eq_nil_iff, ← ne_eq, ← List.length_pos_iff]
      exact Iff.rfl
    simp only [checkName, hglob.mpr hall, hnul, hdots, hfirst, hlast,
      Sql.length_eq (nul_notMem_of_inRanges hall), asBytes_of_inRanges hall, List.length_map,
      Bool.and_eq_true, decide_eq_true_eq, Bool.not_false, Bool.not_eq_true', hempty,
      maxWorkspaceNameLen, eq_true hall, and_true, true_and, and_assoc]
  · have hbad : Sql.glob s notNameGlob = true := by
      rw [← Bool.not_eq_false, hglob]
      exact hall
    constructor
    · intro h
      simp only [checkName, hbad, Bool.not_true, Bool.and_false, Bool.false_and] at h
      cases h
    · rintro ⟨-, -, -, -, h, -⟩
      exact absurd h hall

/-- **Workspace names**: the `CHECK` of the column and the parser accept the same texts. -/
theorem checkName_grammar :
    SameGrammar checkName (fun s => (WorkspaceName.tryFrom s).toOption) WorkspaceName.asStr :=
  .of_prints (fun _ => checkName_iff) fun _ _ => toOption_eq_some.trans WorkspaceName.tryFrom_eq_ok

/-- A single dot is fine, two in a row are not. -/
example : checkName "a.b-c" = true ∧ checkName "a..b" = false := by
  decide

end Metadata
end ThinWorkspace
