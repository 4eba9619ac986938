/-
# The porcelain-v2 parser

Source: `crates/thinws-core/src/git.rs`, up to `DiscoveryCompleteness`.  A text
is the list of its bytes; the position of the source is the text that is left
together with its offset, which only the errors name.  The set of paths is a
`Finset`.

`StatusGrammar` says what the parser accepts and counts.
-/

import Mathlib.Data.Finset.Insert
import Mathlib.Data.Finset.Card
import ThinWorkspace.Lib.Except
import ThinWorkspace.Lib.Fields

namespace ThinWorkspace
namespace Core

open Lib.Fallible Lib.Fields

/-- `StatusField`: the fields of a record, by which an error says what is wrong. -/
inductive StatusField where
  | recordType | header | xy | submodule | headMode | indexMode | worktreeMode | headObject
  | indexObject | stageOneMode | stageTwoMode | stageThreeMode | stageOneObject
  | stageTwoObject | stageThreeObject | score | path
deriving DecidableEq

/-- `StatusParseError`: each error has the offset of the record in the whole text. -/
inductive StatusParseError where
  | unknownRecord (offset : ℕ) (recordType : UInt8)
  | invalidField (offset : ℕ) (recordType : UInt8) (field : StatusField)
  | truncatedRecord (offset : ℕ) (recordType : Option UInt8)
  | missingRenameSource (offset : ℕ)
deriving DecidableEq

/-! ### Bytes

The format is one of bytes, not of characters: a path in it may be any text without a zero
byte.  The predicates are those of the source on single bytes. -/

/-- The byte ` `, which separates the fields of a record. -/
abbrev space : UInt8 := 32

/-- The bytes of an ASCII text, as the byte strings of the source. -/
def ascii (text : String) : List UInt8 := text.toList.map fun c => UInt8.ofNat c.toNat

/-- What holds of every element of a list is checked element by element. -/
theorem forall_mem_of_all {α : Type} {p : α → Prop} [DecidablePred p] {elements : List α}
    (h : elements.all (fun a => decide (p a)) = true) : ∀ a ∈ elements, p a := fun a ha =>
  of_decide_eq_true (List.all_eq_true.mp h a ha)

/-- `matches!(byte, b'0'..=b'7')`: a digit of a file mode. -/
def isOctal (byte : UInt8) : Bool := 48 ≤ byte.toNat && byte.toNat ≤ 55

/-- `is_ascii_digit`: a digit of a similarity score. -/
def isDigit (byte : UInt8) : Bool := 48 ≤ byte.toNat && byte.toNat ≤ 57

/-- `is_ascii_hexdigit`: a digit of an object name, in either case. -/
def isHexDigit (byte : UInt8) : Bool :=
  isDigit byte || 65 ≤ byte.toNat && byte.toNat ≤ 70 || 97 ≤ byte.toNat && byte.toNat ≤ 102

/-- `invalid_field`: the error of a field whose text has not the form it should have. -/
def invalidField (offset : ℕ) (recordType : UInt8) (field : StatusField) : StatusParseError :=
  .invalidField offset recordType field

/-- Field `i` of the fields of a record; they were counted before, so the default is never read. -/
def field (fields : List (List UInt8)) (i : ℕ) : List UInt8 := fields.getD i []

/-! ### Field checks

Each field of a record has a check of its own, and the error of each names the field and the
offset of the record.  The checks are written in the order of the source, since the first
that fails decides the error. -/

/-- `split_fields`: exactly `n` fields, `unwrap_or_default` standing for a missing one. -/
def splitFields (n : ℕ) (record : List UInt8) (offset : ℕ) (recordType : UInt8) :
    Except StatusParseError (List (List UInt8)) := do
  let parsed := (List.range n).map (field (splitn space n record))
  refuseIf (parsed.any List.isEmpty) (.truncatedRecord offset (some recordType))
  refuseIf (field parsed 0 ≠ [recordType]) (invalidField offset recordType .recordType)
  return parsed

/-- The seven pairs of an unmerged path, one for each way in which the two sides can disagree. -/
def unmergedPairs : List (List UInt8) :=
  [ascii "DD", ascii "AU", ascii "UD", ascii "UA", ascii "DU", ascii "AA", ascii "UU"]

/-- The flags of a path that is not unmerged. -/
def changeFlags : List UInt8 := ascii ".MTADRC"

/-- `validate_xy`: the two states of a path, in the index and in the worktree. -/
def validateXy (xy : List UInt8) (unmerged : Bool) (offset : ℕ) (recordType : UInt8) :
    Except StatusParseError Unit :=
  let valid :=
    if unmerged then unmergedPairs.contains xy
    else xy.length == 2 && xy.all changeFlags.contains
  refuseIf (!valid) (invalidField offset recordType .xy)

/-- `validate_submodule`: no submodule, or one with a flag for each way in which it can have
changed. -/
def validateSubmodule (submodule : List UInt8) (offset : ℕ) (recordType : UInt8) :
    Except StatusParseError Unit :=
  let valid := submodule == ascii "N..." ||
    submodule.length == 4 && (ascii "S").contains (submodule.getD 0 0) &&
      (ascii ".C").contains (submodule.getD 1 0) && (ascii ".M").contains (submodule.getD 2 0) &&
      (ascii ".U").contains (submodule.getD 3 0)
  refuseIf (!valid) (invalidField offset recordType .submodule)

/-- `validate_mode`: six octal digits. -/
def validateMode (mode : List UInt8) (field : StatusField) (offset : ℕ) (recordType : UInt8) :
    Except StatusParseError Unit :=
  refuseIf (!(mode.length == 6 && mode.all isOctal)) (invalidField offset recordType field)

/-- `validate_object`: the hexadecimal name of an object, of either hash function. -/
def validateObject (object : List UInt8) (field : StatusField) (offset : ℕ)
    (recordType : UInt8) : Except StatusParseError Unit :=
  refuseIf (!((object.length == 40 || object.length == 64) && object.all isHexDigit))
    (invalidField offset recordType field)

/-- `parse_decimal`, with the overflow checks of a `u16`: a number that is too large is none at
all. -/
def parseDecimal (digits : List UInt8) : Option ℕ :=
  digits.foldlM (fun value digit =>
    if value * 10 < 65536 ∧ value * 10 + (digit.toNat - 48) < 65536 then
      some (value * 10 + (digit.toNat - 48))
    else none) 0

/-- `validate_score`: `R` or `C`, which the pair of states must have as well, and a percentage. -/
def validateScore (score xy : List UInt8) (offset : ℕ) : Except StatusParseError Unit :=
  match score with
  | [] => .error (invalidField offset 50 .score)
  | kind :: value =>
    let valid := (ascii "RC").contains kind && xy.contains kind && !value.isEmpty &&
      decide (value.length ≤ 3) && value.all isDigit && (parseDecimal value).any (· ≤ 100)
    refuseIf (!valid) (invalidField offset 50 .score)

/-! ### Records

One function for each kind of record, and a loop over the records.  Every record takes at
least its own zero byte from the text (`parseRecord_length`), so the loop ends; the paths
are collected in a set, so a path that two records name is counted once. -/

/-- The pattern of a submodule in which only untracked files changed: `.M`, `S..U`, the
gitlink mode three times and the same object twice. -/
def onlyUntrackedSubmodule (fields : List (List UInt8)) : Bool :=
  field fields 1 == ascii ".M" && field fields 2 == ascii "S..U" &&
    field fields 3 == ascii "160000" && field fields 3 == field fields 4 &&
    field fields 4 == field fields 5 && field fields 6 == field fields 7

/-- The checks `parse_ordinary` and `parse_renamed` share, of the fields they share. -/
def validateTracked (fields : List (List UInt8)) (offset : ℕ) (recordType : UInt8) :
    Except StatusParseError Unit := do
  validateXy (field fields 1) false offset recordType
  validateSubmodule (field fields 2) offset recordType
  validateMode (field fields 3) .headMode offset recordType
  validateMode (field fields 4) .indexMode offset recordType
  validateMode (field fields 5) .worktreeMode offset recordType
  validateObject (field fields 6) .headObject offset recordType
  validateObject (field fields 7) .indexObject offset recordType

/-- `parse_ordinary`: one path, unless it is a submodule in which only untracked files have
appeared. -/
def parseOrdinary (record : List UInt8) (offset : ℕ) (paths : Finset (List UInt8)) :
    Except StatusParseError (Finset (List UInt8)) := do
  let fields ← splitFields 9 record offset 49
  validateTracked fields offset 49
  refuseIf (field fields 1 = ascii ".." ∨ (field fields 1).any (ascii "RC").contains)
    (invalidField offset 49 .xy)
  return if onlyUntrackedSubmodule fields then paths else insert (field fields 8) paths

/-- `parse_renamed`: one path, the new one; the old one follows as a record of its own. -/
def parseRenamed (record : List UInt8) (offset : ℕ) (paths : Finset (List UInt8)) :
    Except StatusParseError (Finset (List UInt8)) := do
  let fields ← splitFields 10 record offset 50
  validateTracked fields offset 50
  validateScore (field fields 8) (field fields 1) offset
  return insert (field fields 9) paths

/-- `parse_unmerged`: one path, with the modes and objects of its three stages. -/
def parseUnmerged (record : List UInt8) (offset : ℕ) (paths : Finset (List UInt8)) :
    Except StatusParseError (Finset (List UInt8)) := do
  let fields ← splitFields 11 record offset 117
  validateXy (field fields 1) true offset 117
  validateSubmodule (field fields 2) offset 117
  validateMode (field fields 3) .stageOneMode offset 117
  validateMode (field fields 4) .stageTwoMode offset 117
  validateMode (field fields 5) .stageThreeMode offset 117
  validateMode (field fields 6) .worktreeMode offset 117
  validateObject (field fields 7) .stageOneObject offset 117
  validateObject (field fields 8) .stageTwoObject offset 117
  validateObject (field fields 9) .stageThreeObject offset 117
  return insert (field fields 10) paths

/-- `parse_other_item`: an untracked or ignored path, which is checked but not counted. -/
def parseOtherItem (record : List UInt8) (offset : ℕ) (recordType : UInt8) :
    Except StatusParseError Unit :=
  refuseIf (record.length < 3 ∨ record.getD 1 0 ≠ space ∨ record.drop 2 = [])
    (invalidField offset recordType .path)

/-- `parse_header`: a line about the repository as a whole, which is not counted either. -/
def parseHeader (record : List UInt8) (offset : ℕ) : Except StatusParseError Unit :=
  refuseIf (record.length < 3 ∨ record.getD 1 0 ≠ space ∨ record.drop 2 = [] ∨
      record.getD 2 0 = space ∨ (record.drop 2).any [10, 13].contains)
    (invalidField offset 35 .header)

/-- The source path that follows a renamed record, and the text after it. -/
def renameSource (rest : List UInt8) (offset : ℕ) :
    Except StatusParseError (List UInt8 × List UInt8) :=
  match cut 0 rest with
  | none => .error (.missingRenameSource offset)
  | some (source, rest) =>
    if source = [] then .error (.missingRenameSource offset) else .ok (source, rest)

/-- Taking the source of a rename leaves less of the text, so the parser ends. -/
theorem renameSource_length {rest source rest' : List UInt8} {offset : ℕ}
    (h : renameSource rest offset = .ok (source, rest')) : rest'.length < rest.length := by
  unfold renameSource at h
  split at h
  · cases h
  · rename_i hcut
    split at h
    · cases h
    · cases h
      exact length_lt_of_cut hcut

/-- One pass through the loop of `parse_tracked_change_count`: the text left, its offset
and the paths after the record at the front of `rest`. -/
def parseRecord (rest : List UInt8) (offset : ℕ) (paths : Finset (List UInt8)) :
    Except StatusParseError (List UInt8 × ℕ × Finset (List UInt8)) :=
  match cut 0 rest with
  | none => .error (.truncatedRecord offset rest.head?)
  | some (record, rest) =>
    let next := offset + record.length + 1
    let recordType := record.headD 0
    if recordType = 49 then do
      let paths ← parseOrdinary record offset paths
      return (rest, next, paths)
    else if recordType = 50 then do
      let paths ← parseRenamed record offset paths
      let (source, rest) ← renameSource rest offset
      return (rest, next + source.length + 1, paths)
    else if recordType = 117 then do
      let paths ← parseUnmerged record offset paths
      return (rest, next, paths)
    else if recordType = 63 ∨ recordType = 33 then do
      parseOtherItem record offset recordType
      return (rest, next, paths)
    else if recordType = 35 then do
      parseHeader record offset
      return (rest, next, paths)
    else .error (.unknownRecord offset recordType)

/-- A record is taken from the text, so that the loop over the records ends. -/
theorem parseRecord_length {rest rest' : List UInt8} {offset offset' : ℕ}
    {paths paths' : Finset (List UInt8)}
    (h : parseRecord rest offset paths = .ok (rest', offset', paths')) :
    rest'.length < rest.length := by
  unfold parseRecord at h
  split at h
  · cases h
  · rename_i record after hcut
    have hlt := length_lt_of_cut hcut
    simp only at h
    split at h
    · obtain ⟨paths, -, h⟩ := bind_ok h
      cases h
      exact hlt
    · split at h
      · obtain ⟨paths, -, h⟩ := bind_ok h
        obtain ⟨⟨source, rest'⟩, hsource, h⟩ := bind_ok h
        cases h
        exact (renameSource_length hsource).trans hlt
      · split at h
        · obtain ⟨paths, -, h⟩ := bind_ok h
          cases h
          exact hlt
        · split at h
          · obtain ⟨_, -, h⟩ := bind_ok h
            cases h
            exact hlt
          · split at h
            · obtain ⟨_, -, h⟩ := bind_ok h
              cases h
              exact hlt
            · cases h

/-- The loop of `parse_tracked_change_count`: the paths are collected in a set, so that a path in
two records counts once. -/
def parseRecords (rest : List UInt8) (offset : ℕ) (paths : Finset (List UInt8)) :
    Except StatusParseError ℕ :=
  if rest = [] then .ok paths.card
  else
    match _h : parseRecord rest offset paths with
    | .error e => .error e
    | .ok (rest', offset', paths') => parseRecords rest' offset' paths'
termination_by rest.length
decreasing_by exact parseRecord_length _h

/-- `parse_tracked_change_count`: the number of different paths that the records of the output
name. -/
def parseTrackedChangeCount (output : List UInt8) : Except StatusParseError ℕ :=
  parseRecords output 0 ∅

end Core
end ThinWorkspace
