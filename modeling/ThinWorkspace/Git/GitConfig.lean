/-
# Git configurations as Git reads them

What `crates/thinws-adapter-git-cli/src/git_query/inspect.rs` relies on of Git: how
`git config --null --list` prints the entries of a file, which layers make up the
configuration of a repository, what a boolean value means, and what a filter variable is.

`parseConfigOutput_printConfig` reads the printed entries back: a file in which every entry
has a value is parsed to its entries with normalized keys, any other is refused.
-/

import ThinWorkspace.Git.Preflight

namespace ThinWorkspace
namespace Git

open ThinWorkspace.Core Ports Lib Lib.Fallible Lib.Lexicographic

/-! ### Entries and their listing

Git lists a configuration as records that end in a zero byte, and a variable without a value
has no line feed.  The code reads such a listing exactly if every entry has a value. -/

/-- An entry of a configuration file; a variable may stand there without a value. -/
structure GitEntry where
  key : List UInt8
  value : Option (List UInt8)
  key_ne : key ≠ []
  key_text : 10 ∉ key ∧ 0 ∉ key
  value_text : ∀ text, value = some text → 0 ∉ text

/-- The listing of an entry, without its terminator: the value after a line feed. -/
def GitEntry.record (entry : GitEntry) : List UInt8 :=
  entry.key ++ entry.value.elim [] fun value => 10 :: value

/-- `git config --null --list` of a file with these entries. -/
def printConfig (entries : List GitEntry) : List UInt8 :=
  entries.flatMap fun entry => entry.record ++ [0]

/-- The entry as the code keeps it: the key folded, and a missing value as an empty one. -/
def GitEntry.parsed (entry : GitEntry) : ConfigEntry :=
  ⟨normalizeConfigKey entry.key, entry.value.getD []⟩

/-- Every entry has a value, so that nothing is lost where the code keeps an empty one. -/
def Valued (entries : List GitEntry) : Prop := ∀ entry ∈ entries, entry.value.isSome = true

/-- A record of a listing has no NUL. -/
theorem GitEntry.zero_notMem_record (entry : GitEntry) : 0 ∉ entry.record := by
  unfold GitEntry.record
  rw [List.mem_append]
  rintro (h | h)
  · exact entry.key_text.2 h
  · cases hvalue : entry.value with
    | none => simp [hvalue] at h
    | some value =>
      rw [hvalue, Option.elim_some, List.mem_cons] at h
      rcases h with h | h
      · exact absurd h (by decide)
      · exact entry.value_text value hvalue h

/-- A record of a listing is not empty. -/
theorem GitEntry.record_ne_nil (entry : GitEntry) : entry.record ≠ [] :=
  List.append_ne_nil_of_left_ne_nil entry.key_ne _

/-- The listing of at least one entry is its records with a NUL between two, and one after
the last. -/
theorem printConfig_eq {entries : List GitEntry} (h : entries ≠ []) :
    printConfig entries = [0].intercalate (entries.map GitEntry.record) ++ [0] := by
  rw [← Lib.Segments.flatMap_terminated (by simpa using h), List.flatMap_map]
  rfl

/-- The code reads the record of an entry that has a value, and refuses one that has none. -/
theorem parseConfigRecord_record (entry : GitEntry) :
    parseConfigRecord entry.record =
      if entry.value.isSome then .ok entry.parsed else .error .invalidGitOutput := by
  rw [parseConfigRecord, if_neg entry.record_ne_nil]
  cases hvalue : entry.value with
  | none =>
    have hcut : Lib.Fields.cut 10 entry.record = none := by
      rw [Lib.Fields.cut_eq_none, GitEntry.record, hvalue]
      simpa using entry.key_text.1
    rw [hcut]
    rfl
  | some value =>
    have hcut : Lib.Fields.cut 10 entry.record = some (entry.key, value) := by
      rw [GitEntry.record, hvalue]
      exact Lib.Fields.cut_append entry.key_text.1
    rw [hcut]
    simp [entry.key_ne, GitEntry.parsed, hvalue]

/-- So it reads a listing exactly if every entry has a value.  The induction is on the entries: a
record is parsed if and only if its entry has a value. -/
theorem mapM_parseConfigRecord (entries : List GitEntry) :
    (Valued entries → (entries.map GitEntry.record).mapM parseConfigRecord =
      .ok (entries.map GitEntry.parsed)) ∧
    ∀ parsed, (entries.map GitEntry.record).mapM parseConfigRecord = .ok parsed →
      Valued entries := by
  induction entries with
  | nil => exact ⟨fun _ => rfl, fun _ _ => by simp [Valued]⟩
  | cons entry entries ih =>
    rw [List.map_cons, List.mapM_cons, parseConfigRecord_record]
    constructor
    · intro hvalued
      obtain ⟨hentry, hentries⟩ := List.forall_mem_cons.mp hvalued
      rw [if_pos hentry, ih.1 hentries]
      rfl
    · intro parsed h
      obtain ⟨_, hentry, h⟩ := bind_ok h
      obtain ⟨parsed', hentries, -⟩ := bind_ok h
      refine List.forall_mem_cons.mpr ⟨?_, ih.2 parsed' hentries⟩
      by_contra hnone
      rw [if_neg hnone] at hentry
      cases hentry

/-- **A listing is read back.**  The code accepts it exactly when every entry has a value,
and then has the entries with normalized keys. -/
theorem parseConfigOutput_printConfig {entries : List GitEntry} {parsed : List ConfigEntry} :
    parseConfigOutput (printConfig entries) = .ok parsed ↔
      Valued entries ∧ parsed = entries.map GitEntry.parsed := by
  obtain ⟨hread, hvalued⟩ := mapM_parseConfigRecord entries
  have hparse : parseConfigOutput (printConfig entries) =
      (entries.map GitEntry.record).mapM parseConfigRecord := by
    by_cases hnil : entries = []
    · rw [hnil]
      rfl
    · have hprint := printConfig_eq hnil
      have hlast : (printConfig entries).getLast? = some 0 := by
        rw [hprint, List.getLast?_concat]
      have hne : printConfig entries ≠ [] := by
        rw [hprint]
        exact List.append_ne_nil_of_right_ne_nil _ (List.cons_ne_nil _ _)
      rw [parseConfigOutput, if_neg hne, if_neg (by simp [hlast]), hprint, List.dropLast_concat,
        List.splitOn_intercalate 0 ?_ (by simpa using hnil)]
      intro record hrecord
      obtain ⟨entry, -, rfl⟩ := List.mem_map.mp hrecord
      exact entry.zero_notMem_record
  rw [hparse]
  constructor
  · intro h
    have hall := hvalued parsed h
    exact ⟨hall, (Except.ok.inj ((hread hall).symm.trans h)).symm⟩
  · rintro ⟨hall, rfl⟩
    exact hread hall

/-- A key is normalized in its section and its variable.  The first and the last dot are those that
divide the key, because neither the section nor the variable has one. -/
theorem normalizeConfigKey_append {sectionName driver name : List UInt8}
    (hsection : 46 ∉ sectionName) (hname : 46 ∉ name) :
    normalizeConfigKey (sectionName ++ 46 :: (driver ++ 46 :: name)) =
      lowercase sectionName ++ 46 :: (driver ++ 46 :: lowercase name) := by
  have hcount : ¬(sectionName ++ 46 :: (driver ++ 46 :: name)).count 46 ≤ 1 := by
    rw [List.count_append, List.count_cons_self, List.count_append, List.count_cons_self]
    omega
  have hfirst : (sectionName ++ 46 :: (driver ++ 46 :: name)).takeWhile (· ≠ 46) =
      sectionName := by
    rw [List.takeWhile_append_of_pos, List.takeWhile_cons_of_neg (by decide), List.append_nil]
    intro byte hbyte
    simpa using ne_of_mem_of_not_mem hbyte hsection
  have hlast : (sectionName ++ 46 :: (driver ++ 46 :: name)).rtakeWhile (· ≠ 46) = name := by
    have hreverse : (sectionName ++ 46 :: (driver ++ 46 :: name)).reverse =
        name.reverse ++ 46 :: (sectionName ++ 46 :: driver).reverse := by simp
    rw [List.rtakeWhile, hreverse, List.takeWhile_append_of_pos,
      List.takeWhile_cons_of_neg (by decide), List.append_nil, List.reverse_reverse]
    intro byte hbyte
    simpa using ne_of_mem_of_not_mem (List.mem_reverse.mp hbyte) hname
  have hmiddle : (46 :: (driver ++ 46 :: name)).rdrop name.length = 46 :: (driver ++ [46]) := by
    rw [List.rdrop]
    have hsplit : 46 :: (driver ++ 46 :: name) = 46 :: (driver ++ [46]) ++ name := by simp
    rw [hsplit, List.length_append, Nat.add_sub_cancel, List.take_left']
    rfl
  rw [normalizeConfigKey, if_neg hcount, hfirst, hlast, List.drop_left', hmiddle]
  · simp
  · rfl

/-! ### Values

How Git reads a number and a Boolean.  They are written after its documentation, and only to
be compared with what the code reads. -/

/-- The value of a digit, in whatever base it is read; letters follow the ten digits. -/
def digitValue (byte : UInt8) : ℕ :=
  if isDigit byte then byte.toNat - 48
  else if 97 ≤ (lowerByte byte).toNat then (lowerByte byte).toNat - 87 else 36

/-- The unit that follows a number: kilo, mega and giga, by powers of 1024. -/
def unitFactor (text : List UInt8) : Option ℕ :=
  [(ascii "", 1), (ascii "k", 1024), (ascii "m", 1024 * 1024),
    (ascii "g", 1024 * 1024 * 1024)].lookup
    (lowercase text)

/-- The base of a number and its digits: hexadecimal after `0x`, octal after `0`. -/
def numberBase (text : List UInt8) : ℕ × List UInt8 :=
  if (ascii "0x").isPrefixOf (lowercase text) then (16, text.drop 2)
  else if (ascii "0").isPrefixOf text then (8, text)
  else (10, text)

/-- A number without a sign: digits of the base that its beginning tells, and a unit. -/
def gitNatural (text : List UInt8) : Option ℕ :=
  let (base, digits) := numberBase text
  let number := digits.takeWhile fun byte => decide (digitValue byte < base)
  if number = [] then none
  else (unitFactor (digits.drop number.length)).map fun factor =>
    number.foldl (fun n byte => n * base + digitValue byte) 0 * factor

/-- An integer as Git reads it: white space, a sign, a number, and nothing behind its unit. -/
def gitInteger (text : List UInt8) : Option ℤ :=
  match text.dropWhile isAsciiWhitespace with
  | [] => none
  | first :: rest =>
    if first = 45 then (gitNatural rest).map fun n => -(n : ℤ)
    else if first = 43 then (gitNatural rest).map fun n => (n : ℤ)
    else (gitNatural (first :: rest)).map fun n => (n : ℤ)

/-- A boolean as Git reads it; none where Git reports an error. -/
def gitBool : Option (List UInt8) → Option Bool
  | none => some true
  | some value =>
    if value = [] then some false
    else if [ascii "true", ascii "yes", ascii "on"].contains (lowercase value) then some true
    else if [ascii "false", ascii "no", ascii "off"].contains (lowercase value) then some false
    else (gitInteger value).map fun n => decide (n ≠ 0)

/-- The value of the last entry with the key. -/
def lastValue (entries : List GitEntry) (key : List UInt8) : Option (Option (List UInt8)) :=
  (entries.reverse.find? fun entry => normalizeConfigKey entry.key == key).map (·.value)

/-- The last value of the key is true. -/
def lastIsTrue (entries : List GitEntry) (key : List UInt8) : Bool :=
  (lastValue entries key).bind gitBool == some true

/-! ### Layers

The files that Git reads for a repository, from the most general to the most special; later
entries win. -/

/-- The entries Git reads for a repository: the global sources, the common configuration,
and that of the work tree where the common one says so. -/
def gitEntries (global common worktree : List GitEntry) : List GitEntry :=
  global ++ common ++ if lastIsTrue common worktreeConfigKey then worktree else []

/-- Comparing with a text in lower case compares the folded text. -/
theorem eqIgnoreAsciiCase_eq {value other : List UInt8} (h : lowercase other = other) :
    eqIgnoreAsciiCase value other = true ↔ lowercase value = other := by
  rw [eqIgnoreAsciiCase, beq_iff_eq, h]

/-- A text that the code takes as true is true. -/
theorem gitBool_of_isTrue {value : List UInt8} (h : isTrue value = true) :
    gitBool (some value) = some true := by
  have hne : value ≠ [] := by
    rintro rfl
    exact absurd h (by decide)
  have htext : lowercase value ∈ [ascii "true", ascii "yes", ascii "on"] →
      gitBool (some value) = some true := by
    intro hmem
    rw [gitBool, if_neg hne, if_pos (List.contains_iff_mem.mpr hmem)]
  simp only [isTrue, Bool.or_eq_true] at h
  rcases h with ((h | h) | h) | h
  · exact htext (by simp [(eqIgnoreAsciiCase_eq (by decide)).mp h])
  · exact htext (by simp [(eqIgnoreAsciiCase_eq (by decide)).mp h])
  · exact htext (by simp [(eqIgnoreAsciiCase_eq (by decide)).mp h])
  · rw [beq_iff_eq] at h
    rw [h]
    decide

/-- A text that the code takes as false is false.  The texts that the code accepts are among those
of Git, in whatever case they are written. -/
theorem gitBool_of_isFalse {value : List UInt8} (h : isFalse value = true) :
    gitBool (some value) = some false := by
  have htext : ∀ text ∈ [ascii "false", ascii "no", ascii "off"], lowercase value = text →
      gitBool (some value) = some false := by
    intro text hmem he
    have hnot : text ∉ [ascii "true", ascii "yes", ascii "on"] := by
      clear he
      revert text
      decide
    have hne : value ≠ [] := by
      rintro rfl
      rw [← he] at hmem
      exact absurd hmem (by decide)
    rw [gitBool, if_neg hne, if_neg (by simpa [he] using hnot),
      if_pos (List.contains_iff_mem.mpr (he ▸ hmem))]
  simp only [isFalse, Bool.or_eq_true] at h
  rcases h with ((h | h) | h) | h
  · exact htext _ (by simp) ((eqIgnoreAsciiCase_eq (by decide)).mp h)
  · exact htext _ (by simp) ((eqIgnoreAsciiCase_eq (by decide)).mp h)
  · rw [beq_iff_eq] at h
    rw [h]
    decide
  · exact htext _ (by simp) ((eqIgnoreAsciiCase_eq (by decide)).mp h)

/-! ### The last entry of a key

Of several entries with one key the last one counts, for Git and for the code, so the two
agree on a Boolean where they agree on its last value. -/

/-- The last entry of a key in the code is the last value in Git, with an absent one for empty. -/
theorem lastConfigEntry_parsed (entries : List GitEntry) (key : List UInt8) :
    (lastConfigEntry (entries.map GitEntry.parsed) key).map (·.value) =
      (lastValue entries key).map (·.getD []) := by
  rw [lastConfigEntry, lastValue, ← List.map_reverse, List.find?_map, Option.map_map,
    Option.map_map]
  rfl

/-- **The boolean of the code** is that of Git, except that the code takes an empty value as true.
Both look at the last entry of the key; the code accepts the texts of Git, and the empty value is
the one on which they differ. -/
theorem effectiveConfigBool_parsed {entries : List GitEntry} {key : List UInt8} {value : Bool}
    (hvalued : Valued entries)
    (h : effectiveConfigBool (entries.map GitEntry.parsed) key = .ok value) :
    value = if lastValue entries key = some (some []) then true else lastIsTrue entries key := by
  have hlast := lastConfigEntry_parsed entries key
  rw [effectiveConfigBool] at h
  cases hvalue : lastValue entries key with
  | none =>
    rw [hvalue, Option.map_none, Option.map_eq_none_iff] at hlast
    rw [hlast] at h
    cases h
    simp [lastIsTrue, hvalue]
  | some found =>
    obtain ⟨entry, hentry, rfl⟩ := Option.map_eq_some_iff.mp hvalue
    obtain ⟨text, htext⟩ := Option.isSome_iff_exists.mp
      (hvalued entry (List.mem_reverse.mp (List.mem_of_find?_eq_some hentry)))
    rw [hvalue, htext, Option.map_some, Option.getD_some] at hlast
    obtain ⟨kept, hkept, rfl⟩ := Option.map_eq_some_iff.mp hlast
    rw [hkept] at h
    simp only at h
    rw [htext, lastIsTrue, hvalue, htext, Option.bind_some]
    by_cases hempty : kept.value = []
    · rw [if_pos (.inl hempty)] at h
      cases h
      simp [hempty]
    · rw [if_neg (by simpa using hempty)]
      by_cases htrue : isTrue kept.value = true
      · rw [if_pos (.inr htrue)] at h
        cases h
        rw [gitBool_of_isTrue htrue]
        rfl
      · rw [if_neg (by simp [hempty, htrue])] at h
        split at h
        · rename_i hfalse
          cases h
          rw [gitBool_of_isFalse hfalse]
          rfl
        · cases h

end Git
end ThinWorkspace
