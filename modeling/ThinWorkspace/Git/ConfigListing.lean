/-
# The listing of a configuration is read back

Source: `parse_config_output` and `normalize_config_key` in
`crates/thinws-adapter-git-cli/src/git_query/inspect.rs`.

An item of a configuration has a section, perhaps a subsection, a variable and a value; its
key joins the first three with dots.  Only the subsection may hold dots, so the first and
the last dot of a key find it again (`ConfigItem.normalize_key`).

A record may also have a key without any dot, which is the key of no item and is folded as a
whole.  `parseConfigOutput_records` reads a listing of both kinds, and
`parseConfigOutput_refused_iff` says what is refused.
-/

import ThinWorkspace.Git.GitConfig

namespace ThinWorkspace
namespace Git

open ThinWorkspace.Core Ports Lib Lib.Fallible

/-! ### Items and their keys

An item of a configuration in three parts, and the key that Git prints for it.  The
subsection may hold dots and the other two may not, so the first and the last dot of a key
tell its parts. -/

/-- An item of a configuration.  The section is what precedes the first dot of a key. -/
structure ConfigItem where
  sectionName : List UInt8
  subsection : Option (List UInt8)
  variableName : List UInt8
  value : List UInt8
  section_text : 46 ∉ sectionName ∧ 10 ∉ sectionName ∧ 0 ∉ sectionName
  subsection_text : ∀ text ∈ subsection, 10 ∉ text ∧ 0 ∉ text
  variable_text : 46 ∉ variableName ∧ 10 ∉ variableName ∧ 0 ∉ variableName
  value_text : 0 ∉ value

namespace ConfigItem

/-- A key of the three parts: the subsection, if there is one, stands between the other two and may
hold dots. -/
def keyOf (sectionName : List UInt8) (subsection : Option (List UInt8))
    (variableName : List UInt8) : List UInt8 :=
  match subsection with
  | none => sectionName ++ 46 :: variableName
  | some text => sectionName ++ 46 :: (text ++ 46 :: variableName)

variable (item : ConfigItem)

/-- The key of an item, as Git prints it. -/
def key : List UInt8 := keyOf item.sectionName item.subsection item.variableName

/-- The item as it is read: the section and the variable in lower case, the subsection and
the value byte for byte. -/
def read : ConfigEntry :=
  ⟨keyOf (lowercase item.sectionName) item.subsection (lowercase item.variableName), item.value⟩

/-- The bytes of a key are those of its parts, and the dots between them. -/
theorem mem_keyOf {sectionName variableName : List UInt8} {subsection : Option (List UInt8)}
    {byte : UInt8} (h : byte ∈ keyOf sectionName subsection variableName) :
    byte ∈ sectionName ∨ byte = 46 ∨ (∃ text ∈ subsection, byte ∈ text) ∨
      byte ∈ variableName := by
  cases subsection with
  | none =>
    rcases List.mem_append.mp h with h | h
    · exact .inl h
    · rcases List.mem_cons.mp h with h | h
      · exact .inr (.inl h)
      · exact .inr (.inr (.inr h))
  | some text =>
    rcases List.mem_append.mp h with h | h
    · exact .inl h
    · rcases List.mem_cons.mp h with h | h
      · exact .inr (.inl h)
      · rcases List.mem_append.mp h with h | h
        · exact .inr (.inr (.inl ⟨text, rfl, h⟩))
        · rcases List.mem_cons.mp h with h | h
          · exact .inr (.inl h)
          · exact .inr (.inr (.inr h))

/-- A key has neither a line feed nor a NUL. -/
theorem key_text : 10 ∉ item.key ∧ 0 ∉ item.key := by
  constructor
  · intro h
    rcases mem_keyOf h with h | h | ⟨text, htext, h⟩ | h
    · exact item.section_text.2.1 h
    · exact absurd h (by decide)
    · exact (item.subsection_text text htext).1 h
    · exact item.variable_text.2.1 h
  · intro h
    rcases mem_keyOf h with h | h | ⟨text, htext, h⟩ | h
    · exact item.section_text.2.2 h
    · exact absurd h (by decide)
    · exact (item.subsection_text text htext).2 h
    · exact item.variable_text.2.2 h

/-- The key of an item has a dot, between its section and what follows. -/
theorem dot_mem_key : 46 ∈ item.key := by
  unfold key keyOf
  split
  · exact List.mem_append_right _ List.mem_cons_self
  · exact List.mem_append_right _ List.mem_cons_self

/-- The key of an item is not empty, since it has a dot. -/
theorem key_ne_nil : item.key ≠ [] := List.ne_nil_of_mem item.dot_mem_key

/-- **Only the section and the variable are folded.**  The subsection stands between the first and
the last dot, and is kept byte by byte. -/
theorem normalize_key : normalizeConfigKey item.key =
    keyOf (lowercase item.sectionName) item.subsection (lowercase item.variableName) := by
  unfold key
  cases hsubsection : item.subsection with
  | some text => exact normalizeConfigKey_append item.section_text.1 item.variable_text.1
  | none =>
    have hsection : item.sectionName.count 46 = 0 :=
      List.count_eq_zero_of_not_mem item.section_text.1
    have hvariable : item.variableName.count 46 = 0 :=
      List.count_eq_zero_of_not_mem item.variable_text.1
    have hcount : (item.sectionName ++ 46 :: item.variableName).count 46 ≤ 1 := by
      rw [List.count_append, List.count_cons_self]
      omega
    change normalizeConfigKey (item.sectionName ++ 46 :: item.variableName) = _
    rw [normalizeConfigKey, if_pos hcount, lowercase, List.map_append, List.map_cons]
    rfl

/-- The item among the entries that Git lists. -/
def entry : GitEntry where
  key := item.key
  value := some item.value
  key_ne := item.key_ne_nil
  key_text := item.key_text
  value_text := fun _ h => Option.some.inj h ▸ item.value_text

end ConfigItem

/-- `git config --null --list` of these items: each key, a line feed, the value and a NUL. -/
def listing (items : List ConfigItem) : List UInt8 :=
  items.flatMap fun item => item.key ++ 10 :: item.value ++ [0]

/-! ### Records without a dot in their key

A record whose key has no dot is no item, and Git prints none.  The parser accepts it all
the same and folds its key as a whole. -/

/-- A record that no item has: its key is one word, without a dot.  Git lists none, since every
variable of it has a section, but the code has a branch for keys with fewer than two dots. -/
structure DotlessItem where
  key : List UInt8
  value : List UInt8
  key_ne : key ≠ []
  key_text : 46 ∉ key ∧ 10 ∉ key ∧ 0 ∉ key
  value_text : 0 ∉ value

/-- The record as it is read: the whole key in lower case. -/
def DotlessItem.read (item : DotlessItem) : ConfigEntry := ⟨lowercase item.key, item.value⟩

/-- A key without a dot is folded as a whole. -/
theorem normalizeConfigKey_dotless {key : List UInt8} (h : 46 ∉ key) :
    normalizeConfigKey key = lowercase key := by
  have hcount : key.count 46 ≤ 1 := by
    rw [List.count_eq_zero_of_not_mem h]
    omega
  rw [normalizeConfigKey, if_pos hcount]

/-- The record among those that Git could print. -/
def DotlessItem.entry (item : DotlessItem) : GitEntry where
  key := item.key
  value := some item.value
  key_ne := item.key_ne
  key_text := item.key_text.2
  value_text := fun _ h => Option.some.inj h ▸ item.value_text

/-- A record of a listing that is accepted: an item, or a key without a dot. -/
abbrev ConfigRecord := ConfigItem ⊕ DotlessItem

namespace ConfigRecord

/-- The bytes of a record: its key, a line feed, its value and a NUL. -/
def written : ConfigRecord → List UInt8
  | .inl item => item.key ++ 10 :: item.value ++ [0]
  | .inr item => item.key ++ 10 :: item.value ++ [0]

/-- The record as it is read, whichever of the two kinds it is of. -/
def read : ConfigRecord → ConfigEntry
  | .inl item => item.read
  | .inr item => item.read

/-- The record among those that Git could print. -/
def entry : ConfigRecord → GitEntry
  | .inl item => item.entry
  | .inr item => item.entry

/-- A record is parsed as what it reads as. -/
theorem parsed_entry (record : ConfigRecord) : record.entry.parsed = record.read := by
  rcases record with item | item
  · change ConfigEntry.mk (normalizeConfigKey item.key) item.value = item.read
    rw [item.normalize_key]
    rfl
  · change ConfigEntry.mk (normalizeConfigKey item.key) item.value = item.read
    rw [normalizeConfigKey_dotless item.key_text.1]
    rfl

/-- A record has a value, of whichever of the two kinds it is. -/
theorem valued_entry (record : ConfigRecord) : record.entry.value.isSome = true := by
  rcases record with item | item
  · rfl
  · rfl

/-- The records of a listing are printed one after the other. -/
theorem printConfig_entry (records : List ConfigRecord) :
    printConfig (records.map entry) = records.flatMap written := by
  rw [printConfig, List.flatMap_map]
  refine congrArg (List.flatMap · records) (funext fun record => ?_)
  rcases record with item | item
  · rfl
  · rfl

end ConfigRecord

/-- **A listing is read back**, in its order, also one with records that are no items. -/
theorem parseConfigOutput_records (records : List ConfigRecord) :
    parseConfigOutput (records.flatMap ConfigRecord.written) =
      .ok (records.map ConfigRecord.read) := by
  have hvalued : Valued (records.map ConfigRecord.entry) := by
    intro entry hentry
    obtain ⟨record, -, rfl⟩ := List.mem_map.mp hentry
    exact record.valued_entry
  have hparsed : records.map ConfigRecord.read =
      (records.map ConfigRecord.entry).map GitEntry.parsed := by
    rw [List.map_map]
    exact List.map_congr_left fun record _ => record.parsed_entry.symm
  rw [← ConfigRecord.printConfig_entry]
  exact parseConfigOutput_printConfig.mpr ⟨hvalued, hparsed⟩

/-- A listing of items is read back, item by item and in the same order. -/
theorem parseConfigOutput_listing (items : List ConfigItem) :
    parseConfigOutput (listing items) = .ok (items.map ConfigItem.read) := by
  have hrecords := parseConfigOutput_records (items.map Sum.inl)
  rwa [List.flatMap_map, List.map_map] at hrecords

/-! ### What is refused

A record is bad when it is empty, has no line feed, or has an empty key.  An output is
refused exactly where it is malformed; otherwise it is read to its end, in order. -/

/-- A record that is empty, has no line feed, or an empty key. -/
def BadRecord (record : List UInt8) : Prop :=
  record = [] ∨ 10 ∉ record ∨ record.head? = some 10

/-- An output with no NUL at its end, or with a bad record. -/
def Malformed (output : List UInt8) : Prop :=
  output.getLast? ≠ some 0 ∨ ∃ record ∈ output.dropLast.splitOn 0, BadRecord record

/-- A bad record is refused, whatever is wrong with it. -/
theorem parseConfigRecord_bad {record : List UInt8} (h : BadRecord record) :
    parseConfigRecord record = .error .invalidGitOutput := by
  unfold parseConfigRecord
  split
  · rfl
  · rename_i hne
    rcases h with h | h | h
    · exact absurd h hne
    · rw [Lib.Fields.cut_eq_none.mpr h]
    · obtain ⟨tail, rfl⟩ := List.head?_eq_some_iff.mp h
      have hcut : Lib.Fields.cut 10 ([] ++ 10 :: tail) = some ([], tail) :=
        Lib.Fields.cut_append List.not_mem_nil
      rw [← List.nil_append (10 :: tail), hcut]
      rfl

/-- Any other record is accepted, with some entry. -/
theorem parseConfigRecord_good {record : List UInt8} (h : ¬BadRecord record) :
    ∃ entry, parseConfigRecord record = .ok entry := by
  simp only [BadRecord, not_or, not_not] at h
  obtain ⟨hne, hfeed, hhead⟩ := h
  rw [parseConfigRecord, if_neg hne]
  cases hcut : Lib.Fields.cut 10 record with
  | none => exact absurd hfeed (Lib.Fields.cut_eq_none.mp hcut)
  | some parts =>
    obtain ⟨key, value⟩ := parts
    obtain ⟨rfl, -⟩ := Lib.Fields.cut_eq_some.mp hcut
    have hkey : key ≠ [] := by
      rintro rfl
      exact hhead rfl
    exact ⟨_, if_neg hkey⟩

/-- Records are refused together: one bad record refuses all of them, and without one all are
accepted. -/
theorem mapM_parseConfigRecord_eq (records : List (List UInt8)) :
    ((∃ record ∈ records, BadRecord record) →
      records.mapM parseConfigRecord = .error .invalidGitOutput) ∧
    ((∀ record ∈ records, ¬BadRecord record) →
      ∃ entries, records.mapM parseConfigRecord = .ok entries) := by
  induction records with
  | nil => exact ⟨fun ⟨_, hmem, _⟩ => (nomatch hmem), fun _ => ⟨[], rfl⟩⟩
  | cons record records ih =>
    rw [List.mapM_cons]
    constructor
    · rintro ⟨bad, hmem, hbad⟩
      by_cases hrecord : BadRecord record
      · rw [parseConfigRecord_bad hrecord]
        rfl
      · obtain ⟨entry, hentry⟩ := parseConfigRecord_good hrecord
        have hlater : bad ∈ records := by
          refine (List.mem_cons.mp hmem).resolve_left ?_
          rintro rfl
          exact hrecord hbad
        rw [hentry, ih.1 ⟨bad, hlater, hbad⟩]
        rfl
    · intro hgood
      obtain ⟨hrecord, hrecords⟩ := List.forall_mem_cons.mp hgood
      obtain ⟨entry, hentry⟩ := parseConfigRecord_good hrecord
      obtain ⟨entries, hentries⟩ := ih.2 hrecords
      exact ⟨entry :: entries, by rw [hentry, hentries]; rfl⟩

/-- **What is refused.**  A nonempty output is refused as a whole where it is malformed,
and read to its end where it is not. -/
theorem parseConfigOutput_refused_iff {output : List UInt8} (h : output ≠ []) :
    parseConfigOutput output = .error .invalidGitOutput ↔ Malformed output := by
  obtain ⟨hbad, hgood⟩ := mapM_parseConfigRecord_eq (output.dropLast.splitOn 0)
  rw [parseConfigOutput, if_neg h]
  by_cases hlast : output.getLast? = some 0
  · rw [if_neg (not_not.mpr hlast)]
    constructor
    · intro herror
      by_contra hwell
      simp only [Malformed, hlast, ne_eq, not_true, false_or, not_exists, not_and] at hwell
      obtain ⟨entries, hentries⟩ := hgood hwell
      rw [hentries] at herror
      cases herror
    · rintro (hend | hrecord)
      · exact absurd hlast hend
      · exact hbad hrecord
  · rw [if_pos hlast]
    exact iff_of_true rfl (.inl hlast)

/-- An output that is not malformed is accepted, with some entries. -/
theorem parseConfigOutput_accepted {output : List UInt8} (h : ¬Malformed output) :
    ∃ entries, parseConfigOutput output = .ok entries := by
  simp only [Malformed, not_or, not_not, not_exists, not_and] at h
  obtain ⟨hlast, hgood⟩ := h
  have hne : output ≠ [] := by
    rintro rfl
    cases hlast
  rw [parseConfigOutput, if_neg hne, if_neg (not_not.mpr hlast)]
  exact (mapM_parseConfigRecord_eq _).2 hgood

/-- **The listing of Git is inverted**, and a nonempty output is refused as a whole exactly
where it is malformed.  A record whose key has no dot, which no item is written as, is accepted
wherever it stands in a listing, and its key is folded as a whole. -/
theorem parseConfigOutput_inverts :
    (∀ items : List ConfigItem,
      parseConfigOutput (listing items) = .ok (items.map ConfigItem.read)) ∧
    (∀ output, output ≠ [] →
      (parseConfigOutput output = .error .invalidGitOutput ↔ Malformed output) ∧
      (¬Malformed output → ∃ entries, parseConfigOutput output = .ok entries)) ∧
    ∀ records : List ConfigRecord,
      parseConfigOutput (records.flatMap ConfigRecord.written) =
        .ok (records.map ConfigRecord.read) :=
  ⟨parseConfigOutput_listing,
    fun _ h => ⟨parseConfigOutput_refused_iff h, parseConfigOutput_accepted⟩,
    parseConfigOutput_records⟩

/-- The output of one item, whatever its key: also a key without a dot is accepted, and folded as a
whole. -/
theorem parseConfigOutput_one {key value : List UInt8} (hne : key ≠ [])
    (hkey : 10 ∉ key ∧ 0 ∉ key) (hvalue : 0 ∉ value) :
    parseConfigOutput (key ++ 10 :: value ++ [0]) =
      .ok [⟨normalizeConfigKey key, value⟩] := by
  let entry : GitEntry :=
    ⟨key, some value, hne, hkey, fun _ h => Option.some.inj h ▸ hvalue⟩
  have hvalued : Valued [entry] := by
    intro other hother
    rw [List.mem_singleton.mp hother]
    rfl
  have hprint : printConfig [entry] = key ++ 10 :: value ++ [0] :=
    List.append_nil _
  rw [← hprint]
  exact parseConfigOutput_printConfig.mpr ⟨hvalued, rfl⟩

/-- **Some outputs that are no listing are accepted**, those with a key without a dot; and
a section with a dot, which a listing of Git cannot have, would be folded only up to it. -/
theorem accepts_key_without_dot :
    (parseConfigOutput (ascii "Core" ++ 10 :: ascii "x" ++ [0]) =
        .ok [⟨ascii "core", ascii "x"⟩] ∧
      ∀ items, listing items ≠ ascii "Core" ++ 10 :: ascii "x" ++ [0]) ∧
    parseConfigOutput
        (ConfigItem.keyOf (ascii "A.B") none (ascii "c") ++ 10 :: ascii "x" ++ [0]) ≠
      .ok [⟨ConfigItem.keyOf (lowercase (ascii "A.B")) none (lowercase (ascii "c")),
        ascii "x"⟩] := by
  refine ⟨⟨?_, ?_⟩, ?_⟩
  · rw [parseConfigOutput_one (by decide) (by decide) (by decide)]
    exact congrArg Except.ok (by decide)
  · intro items h
    cases items with
    | nil => cases h
    | cons item items =>
      have hdot : 46 ∈ listing (item :: items) :=
        List.mem_flatMap.mpr ⟨item, List.mem_cons_self,
          List.mem_append_left _ (List.mem_append_left _ item.dot_mem_key)⟩
      rw [h] at hdot
      exact absurd hdot (by decide)
  · rw [parseConfigOutput_one (by decide) (by decide) (by decide)]
    intro h
    exact absurd (Except.ok.inj h) (by decide)

end Git
end ThinWorkspace
