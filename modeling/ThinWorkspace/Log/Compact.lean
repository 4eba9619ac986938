/-
# A serializer

The compact text of a value, as `serde_json::to_vec` prints it: no blanks, the keys of an
object in the order of their bytes, and in a string an escape for `"`, for `\` and for
every control character.  `compact_singleLine` is why a printed value is one line: a newline
is a control character, and nothing else in a text is one.
-/

import ThinWorkspace.Core.FileName
import ThinWorkspace.Lib.Lexicographic
import ThinWorkspace.Log.Record

namespace ThinWorkspace
namespace Log

open ThinWorkspace.Core Lib

/-- The letter behind the `\` of a short escape. -/
def shortEscape? (byte : UInt8) : Option UInt8 :=
  match byte.toNat with
  | 8 => some (UInt8.ofNat 98)
  | 9 => some (UInt8.ofNat 116)
  | 10 => some (UInt8.ofNat 110)
  | 12 => some (UInt8.ofNat 102)
  | 13 => some (UInt8.ofNat 114)
  | 34 => some byte
  | 92 => some byte
  | _ => none

/-- A byte of a string, escaped where it has to be. -/
def escapeByte (byte : UInt8) : List UInt8 :=
  match shortEscape? byte with
  | some letter => [UInt8.ofNat 92, letter]
  | none =>
    if byte.toNat < 32 then asBytes "\\u00" ++ asBytes (Linux.encodeHex [byte]) else [byte]

/-- A string between its quotes, with every special byte escaped. -/
def quoted (value : String) : List UInt8 :=
  UInt8.ofNat 34 :: (asBytes value).flatMap escapeByte ++ [UInt8.ofNat 34]

/-- Printed parts with a comma between them, and no space. -/
def commas (parts : List (List UInt8)) : List UInt8 := parts.intersperse [UInt8.ofNat 44] |>.flatten

/-- The fields in the order of the bytes of their keys. -/
def byKey (fields : List (String × List UInt8)) : List (String × List UInt8) :=
  fields.mergeSort fun a b =>
    Lexicographic.lex (fun x y => decide (x.toNat ≤ y.toNat)) (asBytes a.1) (asBytes b.1)

/-- A printed field: the key, a colon, and the value. -/
def fieldText (field : String × List UInt8) : List UInt8 :=
  quoted field.1 ++ UInt8.ofNat 58 :: field.2

mutual

/-- The compact text of a value, with the fields of an object in the order of their keys. -/
def compact : Json → List UInt8
  | .null => asBytes "null"
  | .bool b => asBytes (if b then "true" else "false")
  | .num n => decimal n.toNat
  | .str s => quoted s
  | .arr items => UInt8.ofNat 91 :: commas (compactItems items) ++ [UInt8.ofNat 93]
  | .obj fields =>
    UInt8.ofNat 123 :: commas ((byKey (compactFields fields)).map fieldText) ++ [UInt8.ofNat 125]

/-- The texts of the items of an array. -/
def compactItems : List Json → List (List UInt8)
  | [] => []
  | item :: items => compact item :: compactItems items

/-- The texts of the values of an object. -/
def compactFields : List (String × Json) → List (String × List UInt8)
  | [] => []
  | field :: fields => compactField field :: compactFields fields

/-- The text of the value of a field. -/
def compactField : String × Json → String × List UInt8
  | (key, value) => (key, compact value)

end

/-! ### One line

A newline in a string is escaped, and the printer puts no blank anywhere, so a printed value
has no newline.  The induction follows the mutual recursion of the printer. -/

/-- An escaped byte is no newline. -/
theorem newline_notMem_escapeByte (byte : UInt8) : newline ∉ escapeByte byte := by
  by_cases hcontrol : byte.toNat < 32
  · have hall : ∀ n : Fin 32, newline ∉ escapeByte (UInt8.ofNat n.val) := by decide
    have h := hall ⟨byte.toNat, hcontrol⟩
    rwa [UInt8.ofNat_toNat] at h
  · have hbyte : newline ≠ byte := by
      rintro rfl
      exact hcontrol (by decide)
    have hslash : newline ≠ UInt8.ofNat 92 := by decide
    have hletter : ∀ letter, shortEscape? byte = some letter → letter = byte := by
      intro letter h
      unfold shortEscape? at h
      split at h <;> first | omega | cases h
      · rfl
      · rfl
    unfold escapeByte
    split
    · rename_i letter hsome
      rw [hletter letter hsome]
      simp only [List.mem_cons, List.not_mem_nil, or_false, not_or]
      exact ⟨hslash, hbyte⟩
    · rw [if_neg hcontrol]
      simp [hbyte]

/-- A quoted text has no newline: those in it are escaped. -/
theorem newline_notMem_quoted (value : String) : newline ∉ quoted value := by
  intro h
  unfold quoted at h
  rcases List.mem_append.mp h with h | h
  · rcases List.mem_cons.mp h with h | h
    · exact absurd h (by decide)
    · obtain ⟨byte, _, h⟩ := List.mem_flatMap.mp h
      exact newline_notMem_escapeByte byte h
  · exact absurd (List.mem_singleton.mp h) (by decide)

/-- Parts without a newline have none when commas are put between them. -/
theorem newline_notMem_commas {parts : List (List UInt8)} (h : ∀ part ∈ parts, newline ∉ part) :
    newline ∉ commas parts := by
  induction parts with
  | nil => exact List.not_mem_nil
  | cons part parts ih =>
    have hrest := ih fun p hp => h p (List.mem_cons_of_mem _ hp)
    have hpart := h part List.mem_cons_self
    cases parts with
    | nil => simpa [commas] using hpart
    | cons next parts =>
      have hcomma : newline ≠ UInt8.ofNat 44 := by decide
      simp only [commas, List.intersperse_cons_cons, List.flatten_cons, List.mem_append,
        List.mem_singleton, not_or] at hrest ⊢
      exact ⟨hpart, hcomma, hrest⟩

/-- A field has no newline if its value has none. -/
theorem newline_notMem_fieldText {field : String × List UInt8} (h : newline ∉ field.2) :
    newline ∉ fieldText field := by
  have hcolon : newline ≠ UInt8.ofNat 58 := by decide
  simp only [fieldText, List.mem_append, List.mem_cons, not_or]
  exact ⟨newline_notMem_quoted field.1, hcolon, h⟩

mutual

/-- **A compact document is one line**: no value is printed with a newline. -/
theorem newline_notMem_compact : ∀ value : Json, newline ∉ compact value
  | .null => by decide
  | .bool true => by decide
  | .bool false => by decide
  | .num n => fun h => by
    rw [compact] at h
    exact absurd (mem_decimal h).1 (by decide)
  | .str s => newline_notMem_quoted s
  | .arr items => by
    have hopen : newline ≠ UInt8.ofNat 91 := by decide
    have hclose : newline ≠ UInt8.ofNat 93 := by decide
    have hitems := newline_notMem_commas (newline_notMem_compactItems items)
    simp only [compact, List.mem_append, List.mem_cons, List.not_mem_nil, or_false, not_or]
    exact ⟨⟨hopen, hitems⟩, hclose⟩
  | .obj fields => by
    have hopen : newline ≠ UInt8.ofNat 123 := by decide
    have hclose : newline ≠ UInt8.ofNat 125 := by decide
    have hfields : newline ∉ commas ((byKey (compactFields fields)).map fieldText) := by
      refine newline_notMem_commas fun part hpart => ?_
      obtain ⟨field, hfield, rfl⟩ := List.mem_map.mp hpart
      refine newline_notMem_fieldText (newline_notMem_compactFields fields field ?_)
      exact List.mem_mergeSort.mp hfield
    simp only [compact, List.mem_append, List.mem_cons, List.not_mem_nil, or_false, not_or]
    exact ⟨⟨hopen, hfields⟩, hclose⟩

/-- No item of an array is printed with a newline. -/
theorem newline_notMem_compactItems :
    ∀ items : List Json, ∀ part ∈ compactItems items, newline ∉ part
  | [] => by simp [compactItems]
  | item :: items => by
    rw [compactItems]
    exact List.forall_mem_cons.mpr
      ⟨newline_notMem_compact item, newline_notMem_compactItems items⟩

/-- No field of an object is printed with a newline. -/
theorem newline_notMem_compactFields :
    ∀ fields : List (String × Json), ∀ field ∈ compactFields fields, newline ∉ field.2
  | [] => by simp [compactFields]
  | (key, value) :: fields => by
    rw [compactFields, compactField]
    exact List.forall_mem_cons.mpr
      ⟨newline_notMem_compact value, newline_notMem_compactFields fields⟩

end

/-- `compact` as a serializer; it prints every value. -/
def compactSerializer : Serializer := fun value => some (compact value)

/-- **A printed value is one line.** -/
theorem compact_singleLine : SingleLine compactSerializer := by
  rintro value _ ⟨⟩
  exact newline_notMem_compact value

end Log
end ThinWorkspace
