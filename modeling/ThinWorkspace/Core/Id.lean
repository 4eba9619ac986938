/-
# Typed identifiers and their canonical text

Source: `crates/thinws-core/src/id.rs` and `volume.rs`.  Four identifiers wrap a
`Uuid`: `InstanceId`, `WorkspaceId` and `OperationId` only hold a version 7,
RFC 4122 value, `VolumeId` holds any value.  A type carries that restriction as
a field, so a wrong version cannot be built.

The `uuid` crate reads several spellings of one value; the source compares the
input with the canonical spelling afterwards, so the text of an identifier is
unique.  `parseStr_hyphenated` reads a canonical text back, and with
`hyphenated_injective` it carries over to every identifier: each `fromText_toText` below rests
on the one, and each `toText_injective` on the other.
-/

import Mathlib.Data.List.Basic

namespace ThinWorkspace
namespace Core

/-- A UUID as its 32 hexadecimal digits, most significant first. -/
structure Uuid where
  digits : List (Fin 16)
  length_digits : digits.length = 32
deriving DecidableEq

/-- The lower-case hexadecimal digit of a nibble, as the `uuid` crate prints it. -/
def hexDigit (d : Fin 16) : Char :=
  "0123456789abcdef".toList.get (d.cast (by decide))

/-- The nibble a hexadecimal digit stands for, in either case. -/
def hexValue (c : Char) : Option (Fin 16) :=
  if '0' ≤ c ∧ c ≤ '9' then some (Fin.ofNat 16 (c.toNat - '0'.toNat))
  else if 'a' ≤ c ∧ c ≤ 'f' then some (Fin.ofNat 16 (c.toNat - 'a'.toNat + 10))
  else if 'A' ≤ c ∧ c ≤ 'F' then some (Fin.ofNat 16 (c.toNat - 'A'.toNat + 10))
  else none

/-- A hexadecimal digit has the value it was written for. -/
@[simp] theorem hexValue_hexDigit : ∀ d, hexValue (hexDigit d) = some d := by decide

/-- A hexadecimal digit is not a hyphen, so the groups of a text can be told apart. -/
theorem hexDigit_ne_hyphen : ∀ d, hexDigit d ≠ '-' := by decide

namespace Uuid

/-- The digits of the canonical text: five groups of 8, 4, 4, 4 and 12. -/
def hyphenatedChars (u : Uuid) : List Char :=
  (u.digits.take 8).map hexDigit ++ '-' ::
    ((u.digits.drop 8).take 4).map hexDigit ++ '-' ::
    ((u.digits.drop 12).take 4).map hexDigit ++ '-' ::
    ((u.digits.drop 16).take 4).map hexDigit ++ '-' ::
    (u.digits.drop 20).map hexDigit

/-- `Uuid::hyphenated().to_string()`: the canonical spelling, in five groups. -/
def hyphenated (u : Uuid) : String :=
  String.ofList u.hyphenatedChars

/-- `Uuid::get_version_num`: the thirteenth digit. -/
def versionNum (u : Uuid) : ℕ :=
  (u.digits.getD 12 0).val

/-- `Uuid::get_variant` is `RFC4122`: the two top bits of digit 16 are `10`. -/
def isRfc4122 (u : Uuid) : Bool :=
  (u.digits.getD 16 0).val / 4 == 2

/-- Thirty-two hexadecimal digits and nothing else: the spelling without hyphens. -/
def parseSimple (s : List Char) : Option Uuid := do
  let ds ← s.mapM hexValue
  if h : ds.length = 32 then some ⟨ds, h⟩ else none

/-- The five groups, with a hyphen at each of the four places. -/
def parseHyphenated (s : List Char) : Option Uuid :=
  if s.length = 36 ∧ s[8]? = some '-' ∧ s[13]? = some '-' ∧ s[18]? = some '-' ∧
      s[23]? = some '-' then
    parseSimple (s.take 8 ++ (s.drop 9).take 4 ++ (s.drop 14).take 4 ++
      (s.drop 19).take 4 ++ s.drop 24)
  else none

/-- `Uuid::parse_str`: the simple, hyphenated, braced and URN spellings, in
either case. -/
def parseStr (s : String) : Option Uuid :=
  let cs := s.toList
  if cs.length = 32 then parseSimple cs
  else if cs.length = 36 then parseHyphenated cs
  else if cs.length = 38 ∧ cs.head? = some '{' ∧ cs.getLast? = some '}' then
    parseHyphenated (cs.drop 1).dropLast
  else if cs.length = 45 ∧ cs.take 9 = "urn:uuid:".toList then parseHyphenated (cs.drop 9)
  else none

/-- A UUID is its digits. -/
@[ext] theorem ext {u v : Uuid} (h : u.digits = v.digits) : u = v := by
  cases u
  cases v
  simpa using h

/-- Digits are read back from their characters, by induction on the digits. -/
private theorem mapM_hexValue (ds : List (Fin 16)) :
    (ds.map hexDigit).mapM hexValue = some ds := by
  induction ds with
  | nil => rfl
  | cons d ds ih => simp [List.mapM_cons, ih]

/-- The digits fall into the five groups of the canonical text. -/
theorem digits_groups (u : Uuid) : ∃ a b c d e : List (Fin 16), a.length = 8 ∧ b.length = 4 ∧
    c.length = 4 ∧ d.length = 4 ∧ e.length = 12 ∧ u.digits = a ++ (b ++ (c ++ (d ++ e))) := by
  obtain ⟨ds, h⟩ := u
  refine ⟨ds.take 8, (ds.drop 8).take 4, (ds.drop 12).take 4, (ds.drop 16).take 4,
    ds.drop 20, ?_, ?_, ?_, ?_, ?_, ?_⟩
  any_goals simp [h]
  have split : ∀ k, (ds.drop k).take 4 ++ ds.drop (k + 4) = ds.drop k := fun k => by
    rw [← List.drop_drop, List.take_append_drop]
  rw [split 16, split 12, split 8, List.take_append_drop]

/-- The canonical text in terms of the groups: whatever the digits are split into, the hyphens
stand between the groups. -/
theorem hyphenatedChars_groups {u : Uuid} {a b c d e : List (Fin 16)} (ha : a.length = 8)
    (hb : b.length = 4) (hc : c.length = 4) (hd : d.length = 4)
    (hu : u.digits = a ++ (b ++ (c ++ (d ++ e)))) :
    u.hyphenatedChars = a.map hexDigit ++ '-' :: (b.map hexDigit ++ '-' ::
      (c.map hexDigit ++ '-' :: (d.map hexDigit ++ '-' :: e.map hexDigit))) := by
  simp [hyphenatedChars, hu, List.drop_append, ha, hb, hc, hd, List.drop_eq_nil_of_le]

/-- A character of the canonical text is a `-` or a digit. -/
theorem mem_hyphenatedChars {u : Uuid} {c : Char} (h : c ∈ u.hyphenatedChars) :
    c = '-' ∨ ∃ d, c = hexDigit d := by
  simp only [hyphenatedChars, List.mem_append, List.mem_cons, List.mem_map] at h
  rcases h with (((⟨d, _, rfl⟩ | rfl | ⟨d, _, rfl⟩) | rfl | ⟨d, _, rfl⟩) | rfl | ⟨d, _, rfl⟩) |
    rfl | ⟨d, _, rfl⟩
  all_goals first | exact .inl rfl | exact .inr ⟨_, rfl⟩

/-- The canonical text has 32 digits and four hyphens. -/
theorem length_hyphenatedChars (u : Uuid) : u.hyphenatedChars.length = 36 := by
  simp [hyphenatedChars, u.length_digits]

/-- **Reading the canonical text gives the value back.**  The text is taken apart at its hyphens,
and each group is read back by itself. -/
theorem parseHyphenated_hyphenatedChars (u : Uuid) :
    parseHyphenated u.hyphenatedChars = some u := by
  obtain ⟨a, b, c, d, e, ha, hb, hc, hd, he, hu⟩ := u.digits_groups
  have ht := hyphenatedChars_groups ha hb hc hd hu
  have hlen := u.length_hyphenatedChars
  have hsimple : parseSimple ((a ++ (b ++ (c ++ (d ++ e)))).map hexDigit) = some u := by
    have hl : (a ++ (b ++ (c ++ (d ++ e)))).length = 32 := by simp [ha, hb, hc, hd, he]
    simp only [parseSimple, mapM_hexValue, Option.bind_eq_bind, Option.bind_some, hl, dite_true]
    exact congrArg some (Uuid.ext hu.symm)
  have hyphens : u.hyphenatedChars[8]? = some '-' ∧ u.hyphenatedChars[13]? = some '-' ∧
      u.hyphenatedChars[18]? = some '-' ∧ u.hyphenatedChars[23]? = some '-' := by
    refine ⟨?_, ?_, ?_, ?_⟩ <;>
      simp [ht, List.getElem?_append, ha, hb, hc, hd]
  rw [parseHyphenated, if_pos ⟨hlen, hyphens⟩, ← hsimple]
  congr 1
  simp [ht, List.drop_append, ha, hb, hc, hd, List.drop_eq_nil_of_le]

/-- `Uuid::parse_str` reads back what `hyphenated` prints: the other spellings are ruled out by the
length. -/
@[simp] theorem parseStr_hyphenated (u : Uuid) : parseStr u.hyphenated = some u := by
  simp [parseStr, hyphenated, u.length_hyphenatedChars, parseHyphenated_hyphenatedChars]

/-- Two values with one canonical text are equal, since reading the text gives both of them back.
-/
theorem hyphenated_injective : Function.Injective hyphenated := fun u v h => by
  have := congrArg parseStr h
  simpa using this

end Uuid

/-! ### Version 7 identifiers

Three of the identifiers are version 7 UUIDs.  The check of version and variant is a field
of `UuidV7`, so no value of another version reaches a record; the text is the canonical one,
behind a prefix for two of them.  What is written is read back, and since each text has one
reading, comparing the stored columns is comparing identities (`WorkspaceId.toText_inj`). -/

/-- `IdParseError`: the first thing that is wrong with the text of an identifier. -/
inductive IdParseError where
  | invalidPrefix (expected : String)
  | invalidFormat
  | wrongVersion
  | wrongVariant
deriving DecidableEq

/-- `validate_uuid_v7`: the version is checked before the variant. -/
def validateUuidV7 (value : Uuid) : Except IdParseError Unit :=
  if value.versionNum ≠ 7 then .error .wrongVersion
  else if !value.isRfc4122 then .error .wrongVariant
  else .ok ()

/-- What `validate_uuid_v7` accepts: a value of version 7 and of the variant of the standard. -/
def Uuid.IsV7 (u : Uuid) : Prop := validateUuidV7 u = .ok ()

instance (u : Uuid) : Decidable u.IsV7 :=
  decidable_of_iff (u.versionNum = 7 ∧ u.isRfc4122 = true) (by
    unfold Uuid.IsV7 validateUuidV7
    by_cases h7 : u.versionNum = 7 <;> cases hv : u.isRfc4122 <;> simp [h7])

/-- `parse_uuid_v7`: only the canonical spelling of a version 7 value passes. -/
def parseUuidV7 (value : String) : Except IdParseError Uuid :=
  match Uuid.parseStr value with
  | none => .error .invalidFormat
  | some parsed =>
    if parsed.hyphenated ≠ value then .error .invalidFormat
    else (validateUuidV7 parsed).map fun _ => parsed

/-- A value of one of the typed identifiers: a version 7 `Uuid`. -/
structure UuidV7 where
  asUuid : Uuid
  isV7 : asUuid.IsV7
deriving DecidableEq

/-- `InstanceId`: printed without a prefix. -/
abbrev InstanceId := UuidV7

/-- `WorkspaceId`, printed with the prefix `ws_`, which the schema checks as well. -/
structure WorkspaceId where
  uuid : UuidV7
deriving DecidableEq

/-- `OperationId`, printed with the prefix `op_`; it names one removal in the log. -/
structure OperationId where
  uuid : UuidV7
deriving DecidableEq

/-- `TryFrom<Uuid>` of the typed identifiers: the check becomes the field of the value. -/
def UuidV7.tryFrom (value : Uuid) : Except IdParseError UuidV7 :=
  if h : value.IsV7 then .ok ⟨value, h⟩
  else (validateUuidV7 value).bind fun _ => .error .wrongVersion

/-- `Display for InstanceId`: the canonical text without a prefix. -/
def UuidV7.toText (id : UuidV7) : String := id.asUuid.hyphenated

/-- `FromStr for InstanceId`: the canonical text and no other spelling of the same value. -/
def UuidV7.fromText (value : String) : Except IdParseError UuidV7 :=
  (parseUuidV7 value).bind UuidV7.tryFrom

/-- The text after a prefix, `str::strip_prefix`; a text that does not begin with it has none. -/
def stripPrefix? (p value : String) : Option String :=
  (p.toList.isPrefixOf? value.toList).map String.ofList

/-- `FromStr` of an identifier with a type prefix, so that an identifier of another type is refused
by its prefix. -/
def fromPrefixedText (expected value : String) : Except IdParseError UuidV7 :=
  match stripPrefix? expected value with
  | none => .error (.invalidPrefix expected)
  | some payload => UuidV7.fromText payload

/-- `Display for WorkspaceId`: the text that is stored, logged, and part of the names of its
siblings. -/
def WorkspaceId.toText (id : WorkspaceId) : String := "ws_" ++ id.uuid.toText

/-- `FromStr for WorkspaceId`: the prefix, and behind it the canonical text. -/
def WorkspaceId.fromText (value : String) : Except IdParseError WorkspaceId :=
  (fromPrefixedText "ws_" value).map WorkspaceId.mk

/-- `Display for OperationId`: the text under which a removal is logged. -/
def OperationId.toText (id : OperationId) : String := "op_" ++ id.uuid.toText

/-- `FromStr for OperationId`: the prefix, and behind it the canonical text. -/
def OperationId.fromText (value : String) : Except IdParseError OperationId :=
  (fromPrefixedText "op_" value).map OperationId.mk

/-- A version 7 value is read back from its text. -/
@[simp] theorem UuidV7.fromText_toText (id : UuidV7) : UuidV7.fromText id.toText = .ok id := by
  have h : validateUuidV7 id.asUuid = .ok () := id.isV7
  have hp : parseUuidV7 id.toText = .ok id.asUuid := by
    simp [parseUuidV7, UuidV7.toText, h, Except.map]
  simp [UuidV7.fromText, hp, Except.bind, UuidV7.tryFrom, id.isV7]

/-- Different values have different texts, by the injectivity of the canonical spelling. -/
theorem UuidV7.toText_injective : Function.Injective UuidV7.toText := by
  rintro ⟨u, hu⟩ ⟨v, hv⟩ h
  obtain rfl : u = v := Uuid.hyphenated_injective h
  rfl

/-- A value is read back from its text behind the type prefix. -/
@[simp] theorem fromPrefixedText_append (p : String) (id : UuidV7) :
    fromPrefixedText p (p ++ id.toText) = .ok id := by
  have h : stripPrefix? p (p ++ id.toText) = some id.toText := by
    simp [stripPrefix?]
  simp [fromPrefixedText, h]

/-- A workspace identity is read back from its text. -/
@[simp] theorem WorkspaceId.fromText_toText (id : WorkspaceId) :
    WorkspaceId.fromText id.toText = .ok id := by
  simp [WorkspaceId.fromText, WorkspaceId.toText, Except.map]

/-- One text per identity: the store compares texts, the domain compares values. -/
theorem WorkspaceId.toText_injective : Function.Injective WorkspaceId.toText := fun u v h => by
  have hread : WorkspaceId.fromText u.toText = WorkspaceId.fromText v.toText := congrArg _ h
  simpa using hread

/-- Identities are equal exactly if their texts are, so comparing the stored column is comparing
identities. -/
@[simp] theorem WorkspaceId.toText_inj {a b : WorkspaceId} : a.toText = b.toText ↔ a = b :=
  WorkspaceId.toText_injective.eq_iff

/-! ### Volume identity

A volume has the UUID that its filesystem was made with, of whatever version.  Only the
spelling is checked: the canonical one, so that one volume has one text. -/

/-- `VolumeId`: any `Uuid`, of any version, since the filesystem chose it. -/
structure VolumeId where
  asUuid : Uuid
deriving DecidableEq

/-- `Display for VolumeId`: the canonical text. -/
def VolumeId.toText (id : VolumeId) : String := id.asUuid.hyphenated

/-- `FromStr for VolumeId`: the canonical text of any version; other spellings are refused. -/
def VolumeId.fromText (value : String) : Option VolumeId :=
  match Uuid.parseStr value with
  | none => none
  | some parsed => if parsed.hyphenated ≠ value then none else some ⟨parsed⟩

/-- A volume identity is read back from its text. -/
@[simp] theorem VolumeId.fromText_toText (id : VolumeId) :
    VolumeId.fromText id.toText = some id := by
  simp [VolumeId.fromText, VolumeId.toText]

/-- Different volumes have different texts, as for the other identifiers. -/
theorem VolumeId.toText_injective : Function.Injective VolumeId.toText := by
  rintro ⟨u⟩ ⟨v⟩ h
  obtain rfl : u = v := Uuid.hyphenated_injective h
  rfl

end Core
end ThinWorkspace
