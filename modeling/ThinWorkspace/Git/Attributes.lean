/-
# Attributes files

Source: `validate_attributes` in
`crates/thinws-adapter-git-cli/src/git_query/inspect.rs`, beside Git's own reading
of a line.  The code takes a line apart at ASCII whitespace, drops the first field and
looks for the attribute `filter` in the others; Git takes it apart at its own blanks,
after a pattern that may be quoted.

Both readings find words between blanks, so `Lib.Words` compares them.  A line that the
code lets pass and Git reads as touching `filter` is of one of the kinds of `Evades`:
`touchesFilter_iff` for a line, `validateAttributes_iff` for a file.
-/

import ThinWorkspace.Core.Status
import ThinWorkspace.Lib.Words
import ThinWorkspace.Ports.Bootstrap

namespace ThinWorkspace
namespace Git

open ThinWorkspace.Core Ports Lib.Fallible Lib.Words

/-! ### What the code reads

The loop of the source, line by line.  A line is trimmed, a comment or an empty one is
passed over, and of the words behind the first one none may name the filter. -/

/-- `is_ascii_whitespace`: space, tab, LF, form feed and CR. -/
def isAsciiWhitespace (byte : UInt8) : Bool := [32, 9, 10, 12, 13].contains byte

/-- `trim_ascii`: the white space at both ends is cut off. -/
def trimAscii (value : List UInt8) : List UInt8 :=
  (value.dropWhile isAsciiWhitespace).rdropWhile isAsciiWhitespace

/-- `filter`, the attribute that names a driver. -/
def filterName : List UInt8 := ascii "filter"

/-- The attribute a field names: without a leading `-` or `!` and without a value. -/
def fieldName (attr : List UInt8) : List UInt8 :=
  let attr :=
    match attr with
    | [] => []
    | first :: rest => if first = 45 ∨ first = 33 then rest else attr
  attr.takeWhile (· ≠ 61)

/-- One pass through the loop of `validate_attributes`: after the pattern no word of the line may
set the filter; comments and empty lines are skipped. -/
def validateAttributesLine (line : List UInt8) : Except GitInspectionIssue Unit :=
  let line := trimAscii line
  if line = [] ∨ line.head? = some 35 then .ok ()
  else ((words isAsciiWhitespace line).drop 1).forM fun attr =>
    refuseIf (fieldName attr = filterName) .unsafeAttributes

/-- `validate_attributes`: the lines one after the other; the first that sets a filter refuses the
file. -/
def validateAttributes (contents : List UInt8) : Except GitInspectionIssue Unit :=
  (contents.splitOn 10).forM validateAttributesLine

/-! ### What Git reads

Git's own reading of a line, from its documentation: a pattern, which may be C-quoted, then
attributes between blanks.  It does not know the trimming of the code, and its blanks are
fewer. -/

/-- A blank of Git: space, tab, CR or LF. -/
def isGitBlank (byte : UInt8) : Bool := [32, 9, 13, 10].contains byte

/-- A byte of a pattern or an attribute. -/
def isGitText (byte : UInt8) : Bool := !isGitBlank byte

/-- The byte a letter after a backslash stands for. -/
def escaped (byte : UInt8) : Option UInt8 :=
  [(97, 7), (98, 8), (102, 12), (110, 10), (114, 13), (116, 9), (118, 11), (92, 92),
    (34, 34)].lookup byte

/-- The text of a C-quoted string after its opening quote, and what follows the closing
one. -/
def unquoteCStyle : List UInt8 → Option (List UInt8 × List UInt8)
  | [] => none
  | byte :: rest =>
    if byte = 34 then some ([], rest)
    else if byte = 92 then
      match rest with
      | [] => none
      | letter :: rest =>
        match escaped letter with
        | some byte => (unquoteCStyle rest).map fun (text, states) => (byte :: text, states)
        | none =>
          match rest with
          | second :: third :: rest =>
            if isOctal letter ∧ letter.toNat < 52 ∧ isOctal second ∧ isOctal third then
              let byte := UInt8.ofNat ((letter.toNat - 48) * 64 + (second.toNat - 48) * 8 +
                (third.toNat - 48))
              (unquoteCStyle rest).map fun (text, states) => (byte :: text, states)
            else none
          | _ => none
    else (unquoteCStyle rest).map fun (text, states) => (byte :: text, states)

/-- The quoted pattern of a line and the text after its closing quote. -/
def quotedPattern (line : List UInt8) : Option (List UInt8 × List UInt8) :=
  match line.dropWhile isGitBlank with
  | [] => none
  | first :: quoted => if first = 34 then unquoteCStyle quoted else none

/-- The pattern of a line and the text of its attributes; none for a blank line and a
comment.  The pattern `[attr]name` defines a macro, its attributes are read the same way. -/
def attributesLine (line : List UInt8) : Option (List UInt8 × List UInt8) :=
  let line' := line.dropWhile isGitBlank
  if line' = [] ∨ line'.head? = some 35 then none
  else (quotedPattern line).or
    (some (line'.takeWhile isGitText, line'.dropWhile isGitText))

/-- The attributes of a line as Git splits it, none for a line that has no pattern. -/
def attributes (line : List UInt8) : List (List UInt8) :=
  ((attributesLine line).map fun (_, states) => words isGitBlank states).getD []

/-- An attribute is set, unset, unspecified or assigned a value. -/
inductive Touches (name : List UInt8) : List UInt8 → Prop
  | set : Touches name name
  | unset : Touches name (45 :: name)
  | unspecified : Touches name (33 :: name)
  | assigned (value : List UInt8) : Touches name (name ++ 61 :: value)

/-- A line touches `filter` as Git reads it. -/
def TouchesFilter (line : List UInt8) : Prop :=
  ∃ attr ∈ attributes line, Touches filterName attr

/-! ### The lines that are read differently

The two readings differ in three kinds of lines.  In each of them Git reads an attribute
`filter` where the code sees another word, or none. -/

/-- The form feed, which is ASCII whitespace and no blank of Git. -/
abbrev formFeed : UInt8 := 12

/-- An attribute `filter` stands right after the closing quote of the pattern. -/
def GluedFilter (line : List UInt8) : Prop :=
  ∃ pattern states, quotedPattern line = some (pattern, states) ∧
    Touches filterName (states.takeWhile isGitText)

/-- A line that begins with form feeds, then a `#`: a comment to the code, a pattern to Git. -/
def FormFeedComment (line : List UInt8) : Prop :=
  (line.dropWhile isGitBlank).head? = some formFeed ∧
    (line.dropWhile isAsciiWhitespace).head? = some 35 ∧
    ∃ attr ∈ attributes line, Touches filterName attr

/-- The pattern and the attributes before `filter` are form feeds: `filter` is the field
that the code drops. -/
def FormFeedPattern (line : List UInt8) : Prop :=
  ∃ pattern states before attr after, attributesLine line = some (pattern, states) ∧
    (line.dropWhile isGitBlank).head? = some formFeed ∧
    words isGitBlank states = before ++ attr :: after ∧
    (∀ byte ∈ pattern, byte = formFeed) ∧
    (∀ part ∈ before, ∀ byte ∈ part, byte = formFeed) ∧ Touches filterName attr

/-- The kinds of lines that the code takes apart in another way than Git. -/
inductive Evades (line : List UInt8) : Prop
  | glued (h : GluedFilter line)
  | comment (h : FormFeedComment line)
  | pattern (h : FormFeedPattern line)

/-- A field after the first one names `filter`, on a line that is no comment. -/
def PlainFilter (line : List UInt8) : Prop :=
  (line.dropWhile isAsciiWhitespace).head? ≠ some 35 ∧
    ∃ attr ∈ (words isAsciiWhitespace line).drop 1, fieldName attr = filterName

variable {line pattern states attr : List UInt8} {byte : UInt8}

/-! ### Blanks and fields

A line in terms of words: the fields of the code are the words between ASCII whitespace, and
those of Git the words between its own blanks.  Every blank of Git is whitespace to the
code, so an attribute of Git lies in a field. -/

/-- The code separates words at a form feed too, where Git does not. -/
theorem isAsciiWhitespace_eq_false_iff :
    isAsciiWhitespace byte = false ↔ isGitBlank byte = false ∧ byte ≠ formFeed := by
  simp [isAsciiWhitespace, isGitBlank]
  tauto

/-- What separates words in Git separates them in the code. -/
theorem isAsciiWhitespace_of_isGitBlank (h : isGitBlank byte = true) :
    isAsciiWhitespace byte = true := by
  by_contra hws
  rw [Bool.not_eq_true, isAsciiWhitespace_eq_false_iff] at hws
  rw [hws.1] at h
  cases h

/-- Trimming a line leaves its words. -/
theorem words_trimAscii (line : List UInt8) :
    words isAsciiWhitespace (trimAscii line) = words isAsciiWhitespace line := by
  rw [trimAscii, words_rdropWhile, words_dropWhile]

/-- A trimmed line begins with its first byte that is no whitespace. -/
theorem head?_trimAscii (line : List UInt8) :
    (trimAscii line).head? = (line.dropWhile isAsciiWhitespace).head? := by
  refine head?_rdropWhile fun byte hbyte => ?_
  have hnot := List.head?_dropWhile_not isAsciiWhitespace line
  rw [hbyte] at hnot
  simpa using hnot

/-- **What the code refuses in a line.**  A comment or an empty line has no attribute; of any other
line the code looks at every field behind the pattern. -/
theorem validateAttributesLine_iff : validateAttributesLine line = .ok () ↔ ¬PlainFilter line := by
  unfold validateAttributesLine PlainFilter
  simp only [head?_trimAscii, words_trimAscii]
  by_cases hskip : trimAscii line = [] ∨ (line.dropWhile isAsciiWhitespace).head? = some 35
  · rw [if_pos hskip]
    refine iff_of_true rfl ?_
    rintro ⟨hcomment, attr, hattr, -⟩
    rcases hskip with hnil | hskip
    · rw [← words_trimAscii, hnil, words_nil] at hattr
      cases hattr
    · exact hcomment hskip
  · rw [if_neg hskip, forM_eq_ok]
    simp only [refuseIf_eq_ok]
    rw [not_or] at hskip
    constructor
    · rintro hall ⟨-, attr, hattr, hname⟩
      exact hall attr hattr hname
    · intro hnone attr hattr hname
      exact hnone ⟨hskip.2, attr, hattr, hname⟩

/-- An attribute `filter` of Git begins with a field that names it.  There is one case for each
form of an attribute: set, unset with `-`, unspecified with `!`, and with a value behind `=`. -/
theorem exists_field_of_touches (h : Touches filterName attr) : ∃ field rest,
    attr = field ++ rest ∧ IsWord isAsciiWhitespace field ∧ BlankAfter isAsciiWhitespace rest ∧
      fieldName field = filterName := by
  have hwhole : ∀ attr, attr ≠ [] → (∀ byte ∈ attr, isAsciiWhitespace byte = false) →
      fieldName attr = filterName → ∃ field rest, attr = field ++ rest ∧
        IsWord isAsciiWhitespace field ∧ BlankAfter isAsciiWhitespace rest ∧
        fieldName field = filterName := fun attr hne hblank hname =>
    ⟨attr, [], (List.append_nil _).symm, ⟨hne, hblank⟩, by simp [BlankAfter], hname⟩
  cases h with
  | set => exact hwhole _ (by decide) (forall_mem_of_all (by decide)) (by decide)
  | unset => exact hwhole _ (by decide) (forall_mem_of_all (by decide)) (by decide)
  | unspecified => exact hwhole _ (by decide) (forall_mem_of_all (by decide)) (by decide)
  | assigned value =>
    refine ⟨filterName ++ 61 :: value.takeWhile (! isAsciiWhitespace ·),
      value.dropWhile (! isAsciiWhitespace ·), ?_, ⟨by simp, ?_⟩, ?_, ?_⟩
    · rw [List.append_assoc, List.cons_append, List.takeWhile_append_dropWhile]
    · intro byte hbyte
      rw [List.mem_append, List.mem_cons] at hbyte
      rcases hbyte with hbyte | rfl | hbyte
      · have hname : ∀ byte ∈ filterName, isAsciiWhitespace byte = false :=
          forall_mem_of_all (by decide)
        exact hname byte hbyte
      · decide
      · simpa using List.mem_takeWhile_imp hbyte
    · intro byte hbyte
      have hnot := List.head?_dropWhile_not (! isAsciiWhitespace ·) value
      rw [hbyte] at hnot
      simpa using hnot
    · simp [fieldName, filterName, ascii]

/-! ### How Git's reading lies in the line

Git takes a line apart from its front, and what it finds lies in the line at certain places.
`Placed` records them, so that the two readings can be compared at one position. -/

/-- What follows a quoted pattern is the end of the line.  The induction follows the unquoting,
each step of which drops a beginning of what is left. -/
theorem unquoteCStyle_suffix {quoted : List UInt8}
    (h : unquoteCStyle quoted = some (pattern, states)) : states <:+ quoted := by
  have hmap : ∀ {byte : UInt8} {rest : List UInt8} {pattern : List UInt8},
      (∀ {pattern}, unquoteCStyle rest = some (pattern, states) → states <:+ rest) →
      (unquoteCStyle rest).map (fun (text, states) => (byte :: text, states)) =
        some (pattern, states) → states <:+ rest := by
    intro byte rest pattern ih h
    obtain ⟨⟨text, states'⟩, hrest, he⟩ := Option.map_eq_some_iff.mp h
    cases he
    exact ih hrest
  fun_induction unquoteCStyle quoted generalizing pattern with
  | case1 => cases h
  | case2 =>
    cases h
    exact List.suffix_cons _ _
  | case3 => cases h
  | case4 =>
    rename_i ih
    exact (hmap ih h).trans ((List.suffix_cons _ _).trans (List.suffix_cons _ _))
  | case5 =>
    rename_i ih
    refine (hmap ih h).trans (.trans ?_ ((List.suffix_cons _ _).trans (List.suffix_cons _ _)))
    exact (List.suffix_cons _ _).trans (List.suffix_cons _ _)
  | case6 => cases h
  | case7 => cases h
  | case8 =>
    rename_i ih
    exact (hmap ih h).trans (List.suffix_cons _ _)

/-- Where the pattern and the attributes of a line stand. -/
structure Placed (line pattern states : List UInt8) (lead : List UInt8) (first : UInt8)
    (rest : List UInt8) : Prop where
  eq : line = lead ++ first :: (rest ++ states)
  lead_blank : ∀ byte ∈ lead, isGitBlank byte = true
  first_blank : isGitBlank first = false
  no_comment : first ≠ 35
  head : (line.dropWhile isGitBlank).head? = some first
  form : quotedPattern line = some (pattern, states) ∧ first = 34 ∨
    pattern = first :: rest ∧ (∀ byte ∈ rest, isGitBlank byte = false) ∧
      BlankAfter isGitBlank states

/-- The pattern and the attributes of a line have their places in it. -/
theorem exists_placed (h : attributesLine line = some (pattern, states)) :
    ∃ lead first rest, Placed line pattern states lead first rest := by
  unfold attributesLine at h
  simp only at h
  split at h
  · cases h
  · rename_i hline
    rw [not_or] at hline
    obtain ⟨first, tail, htail⟩ := List.exists_cons_of_ne_nil hline.1
    have hlead : line.takeWhile isGitBlank ++ first :: tail = line := by
      rw [← htail, List.takeWhile_append_dropWhile]
    have hblank : ∀ byte ∈ line.takeWhile isGitBlank, isGitBlank byte = true :=
      fun byte hbyte => List.mem_takeWhile_imp hbyte
    have hfirst : isGitBlank first = false := by
      have hnot := List.head?_dropWhile_not isGitBlank line
      rw [htail] at hnot
      simpa using hnot
    have hcomment : first ≠ 35 := by
      rintro rfl
      rw [htail] at hline
      exact hline.2 rfl
    cases hquoted : quotedPattern line with
    | some parsed =>
      rw [hquoted, Option.some_or] at h
      cases h
      have hq := hquoted
      unfold quotedPattern at hq
      rw [htail] at hq
      simp only at hq
      split at hq
      · rename_i hquote
        obtain ⟨rest, rfl⟩ := unquoteCStyle_suffix hq
        exact ⟨_, first, rest, hlead.symm, hblank, hfirst, hcomment, by rw [htail]; rfl,
          Or.inl ⟨hquoted, hquote⟩⟩
      · cases hq
    | none =>
      rw [hquoted, Option.none_or, htail] at h
      have hsplit : isGitText first = true := by rw [isGitText, hfirst]; rfl
      rw [List.takeWhile_cons_of_pos hsplit, List.dropWhile_cons_of_pos hsplit] at h
      cases h
      refine ⟨_, first, tail.takeWhile isGitText, ?_, hblank, hfirst, hcomment,
        by rw [htail]; rfl, Or.inr ⟨rfl, ?_, ?_⟩⟩
      · rw [List.takeWhile_append_dropWhile, hlead]
      · intro byte hbyte
        simpa [isGitText] using List.mem_takeWhile_imp hbyte
      · intro byte hbyte
        have hnot := List.head?_dropWhile_not isGitText tail
        rw [hbyte] at hnot
        simpa [isGitText] using hnot

/-! ### Both readings of one line

An attribute that touches the filter is followed to the field it lies in.  Either the code
refuses that field, or the line is of one of the three kinds; the converse is shown kind by
kind.  The equivalence for a whole file follows line by line. -/

/-- A place before a blank of Git is one before whitespace. -/
theorem blankAfter_mono {text : List UInt8} (h : BlankAfter isGitBlank text) :
    BlankAfter isAsciiWhitespace text :=
  fun byte hbyte => isAsciiWhitespace_of_isGitBlank (h byte hbyte)

/-- A place after a blank of Git is one after whitespace. -/
theorem blankBefore_mono {text : List UInt8} (h : BlankBefore isGitBlank text) :
    BlankBefore isAsciiWhitespace text :=
  fun byte hbyte => isAsciiWhitespace_of_isGitBlank (h byte hbyte)

/-- What ends in a blank does so with anything in front. -/
theorem blankBefore_append {p : UInt8 → Bool} {before after : List UInt8} (hne : after ≠ [])
    (h : BlankBefore p after) : BlankBefore p (before ++ after) := by
  intro byte hbyte
  obtain ⟨last, hlast⟩ : ∃ last, after.getLast? = some last :=
    ⟨_, List.getLast?_eq_some_getLast hne⟩
  rw [List.getLast?_append, hlast] at hbyte
  exact h byte (hlast ▸ hbyte)

/-- A word of Git that touches `filter` is among the fields of the code, after those of the
text before it. -/
theorem exists_mem_fields {before rest : List UInt8} (hbefore : BlankBefore isGitBlank before)
    (hattr : Touches filterName attr) (hrest : BlankAfter isGitBlank rest) :
    ∃ field after, words isAsciiWhitespace (before ++ (attr ++ rest)) =
      words isAsciiWhitespace before ++ field :: after ∧ fieldName field = filterName := by
  obtain ⟨field, tail, rfl, hfield, htail, hname⟩ := exists_field_of_touches hattr
  have hafter : BlankAfter isAsciiWhitespace (tail ++ rest) := by
    cases tail with
    | nil => exact blankAfter_mono hrest
    | cons byte tail => exact fun b hb => htail b hb
  refine ⟨field, words isAsciiWhitespace (tail ++ rest), ?_, hname⟩
  rw [List.append_assoc]
  exact words_middle (blankBefore_mono hbefore) hfield hafter

/-- The attributes of a line are the words behind its pattern. -/
theorem attributes_of_attributesLine (h : attributesLine line = some (pattern, states)) :
    attributes line = words isGitBlank states := by
  rw [attributes, h]
  rfl

/-- The text that only ASCII whitespace and words of form feeds make. -/
theorem formFeed_of_whitespace {text : List UInt8}
    (h : ∀ byte ∈ text, isAsciiWhitespace byte = true)
    (hblank : ∀ byte ∈ text, isGitBlank byte = false) : ∀ byte ∈ text, byte = formFeed := by
  intro byte hbyte
  by_contra hne
  have hws := isAsciiWhitespace_eq_false_iff.mpr ⟨hblank byte hbyte, hne⟩
  rw [h byte hbyte] at hws
  cases hws

/-- The first token of a text is what stands before its first blank. -/
theorem takeWhile_of_isWord {word rest : List UInt8} (hword : IsWord isGitBlank word)
    (hrest : BlankAfter isGitBlank rest) : (word ++ rest).takeWhile isGitText = word := by
  have htext : ∀ byte ∈ word, isGitText byte = true := fun byte hbyte => by
    rw [isGitText, hword.no_blank byte hbyte]
    rfl
  rw [List.takeWhile_append_of_pos htext]
  cases rest with
  | nil => simp
  | cons byte rest =>
    have hblank : isGitBlank byte = true := hrest byte rfl
    rw [List.takeWhile_cons_of_neg (by simp [isGitText, hblank]), List.append_nil]

/-- An attribute at the very beginning of the attributes: the pattern is quoted. -/
theorem Placed.glued {lead rest after : List UInt8} {first : UInt8}
    (h : Placed line pattern states lead first rest) (hstates : states = attr ++ after)
    (hword : IsWord isGitBlank attr) (hafter : BlankAfter isGitBlank after)
    (htouches : Touches filterName attr) : GluedFilter line := by
  rcases h.form with ⟨hquoted, -⟩ | ⟨-, -, hblank⟩
  · refine ⟨pattern, states, hquoted, ?_⟩
    rwa [hstates, takeWhile_of_isWord hword hafter]
  · obtain ⟨byte, tail, rfl⟩ := List.exists_cons_of_ne_nil hword.ne_nil
    have hfirst : isGitBlank byte = true := hblank byte (by rw [hstates]; rfl)
    rw [hword.no_blank byte List.mem_cons_self] at hfirst
    cases hfirst

/-- A line that does not begin with a form feed begins the same to both readers. -/
theorem Placed.head_trimmed {lead rest : List UInt8} {first : UInt8}
    (h : Placed line pattern states lead first rest) (hfirst : first ≠ formFeed) :
    (line.dropWhile isAsciiWhitespace).head? = some first := by
  have hws : isAsciiWhitespace first = false :=
    isAsciiWhitespace_eq_false_iff.mpr ⟨h.first_blank, hfirst⟩
  have hlead : ∀ byte ∈ lead, isAsciiWhitespace byte = true :=
    fun byte hbyte => isAsciiWhitespace_of_isGitBlank (h.lead_blank byte hbyte)
  rw [h.eq, List.dropWhile_append_of_pos hlead, List.dropWhile_cons_of_neg (by simp [hws])]
  rfl

/-- A field after the first one, where a byte before it is no whitespace. -/
theorem plainFilter_of_words {before : List UInt8} {field : List UInt8}
    {after : List (List UInt8)} (hcomment : (line.dropWhile isAsciiWhitespace).head? ≠ some 35)
    (hwords : words isAsciiWhitespace line = words isAsciiWhitespace before ++ field :: after)
    (hname : fieldName field = filterName) (hne : words isAsciiWhitespace before ≠ []) :
    PlainFilter line := by
  refine ⟨hcomment, field, ?_, hname⟩
  obtain ⟨word, rest, hbefore⟩ := List.exists_cons_of_ne_nil hne
  rw [hwords, hbefore]
  exact List.mem_append_right _ List.mem_cons_self

/-- **A line that slips through.**  Git reads the attribute `filter` in it and the code does
not: the line is of one of the three kinds. -/
theorem evades_of_touchesFilter (h : TouchesFilter line) (hplain : ¬PlainFilter line) :
    Evades line := by
  have htouched := h
  obtain ⟨attr, hmem, htouches⟩ := h
  cases hparsed : attributesLine line with
  | none =>
    rw [attributes, hparsed] at hmem
    cases hmem
  | some parsed =>
    obtain ⟨pattern, states⟩ := parsed
    obtain ⟨lead, first, rest, hplaced⟩ := exists_placed hparsed
    rw [attributes_of_attributesLine hparsed] at hmem
    obtain ⟨before, after, hstates, hbefore, hafter, hword⟩ := exists_of_mem_words hmem
    by_cases hnil : before = []
    · exact .glued (hplaced.glued (by rw [hstates, hnil]; rfl) hword hafter htouches)
    -- a blank stands before the attribute: the code sees it as a field of its own
    have hline : line = (lead ++ first :: (rest ++ before)) ++ (attr ++ after) := by
      rw [hplaced.eq, hstates]
      simp
    have hblank : BlankBefore isGitBlank (lead ++ first :: (rest ++ before)) := by
      have hsplit : lead ++ first :: (rest ++ before) = (lead ++ first :: rest) ++ before := by
        simp
      rw [hsplit]
      exact blankBefore_append hnil hbefore
    obtain ⟨field, fields, hwords, hname⟩ := exists_mem_fields hblank htouches hafter
    rw [← hline] at hwords
    by_cases hfirst : first = formFeed
    · by_cases hcomment : (line.dropWhile isAsciiWhitespace).head? = some 35
      · exact .comment ⟨hfirst ▸ hplaced.head, hcomment, htouched⟩
      have hwhite : words isAsciiWhitespace (lead ++ first :: (rest ++ before)) = [] :=
        not_not.mp fun hne => hplain (plainFilter_of_words hcomment hwords hname hne)
      rw [words_eq_nil_iff] at hwhite
      rcases hplaced.form with ⟨-, hquote⟩ | ⟨hpattern, hrest, -⟩
      · rw [hfirst] at hquote
        exact absurd hquote (by decide)
      · refine .pattern ⟨pattern, states, words isGitBlank before, attr, words isGitBlank after,
          hparsed, hfirst ▸ hplaced.head, ?_, ?_, fun part hpart => ?_, htouches⟩
        · rw [hstates, words_middle hbefore hword hafter]
        · rw [hpattern]
          refine formFeed_of_whitespace (fun byte hbyte => hwhite byte ?_) ?_
          · simp only [List.mem_append, List.mem_cons] at hbyte ⊢
            tauto
          · exact List.forall_mem_cons.mpr ⟨hplaced.first_blank, hrest⟩
        · obtain ⟨head, tail, hpart, -, -, hpartWord⟩ := exists_of_mem_words hpart
          refine formFeed_of_whitespace (fun byte hbyte => hwhite byte ?_) hpartWord.no_blank
          rw [hpart]
          simp [hbyte]
    · have hcomment : (line.dropWhile isAsciiWhitespace).head? ≠ some 35 := by
        rw [hplaced.head_trimmed hfirst]
        simpa using hplaced.no_comment
      refine absurd (plainFilter_of_words hcomment hwords hname fun hwhite => ?_) hplain
      have hws := words_eq_nil_iff.mp hwhite first (by simp)
      rw [isAsciiWhitespace_eq_false_iff.mpr ⟨hplaced.first_blank, hfirst⟩] at hws
      cases hws

/-- An attribute that names the filter is not empty. -/
theorem Touches.ne_nil (h : Touches filterName attr) : attr ≠ [] := by
  cases h <;> simp [filterName, ascii]

/-- A line with a quoted pattern has the attributes behind the quote. -/
theorem attributesLine_quoted (h : quotedPattern line = some (pattern, states)) :
    attributesLine line = some (pattern, states) := by
  have hq := h
  unfold quotedPattern at hq
  unfold attributesLine
  simp only
  split at hq
  · cases hq
  · rename_i first quoted hline
    split at hq
    · rename_i hquote
      rw [if_neg (by simp [hline, hquote]), h, Option.some_or]
    · cases hq

/-- The three kinds of lines touch `filter`. -/
theorem touchesFilter_of_evades (h : Evades line) : TouchesFilter line := by
  cases h with
  | glued h =>
    obtain ⟨pattern, states, hquoted, htouches⟩ := h
    have hparsed : attributesLine line = some (pattern, states) := attributesLine_quoted hquoted
    have hne : states.takeWhile isGitText ≠ [] := by
      intro hnil
      rw [hnil] at htouches
      exact htouches.ne_nil rfl
    have hword : IsWord isGitBlank (states.takeWhile isGitText) :=
      ⟨hne, fun byte hbyte => by simpa [isGitText] using List.mem_takeWhile_imp hbyte⟩
    have hafter : BlankAfter isGitBlank (states.dropWhile isGitText) := by
      intro byte hbyte
      have hnot := List.head?_dropWhile_not isGitText states
      rw [hbyte] at hnot
      simpa [isGitText] using hnot
    have hnone : BlankBefore isGitBlank [] := by simp [BlankBefore]
    have hwords := words_middle hnone hword hafter
    rw [List.nil_append, List.takeWhile_append_dropWhile] at hwords
    refine ⟨_, ?_, htouches⟩
    rw [attributes_of_attributesLine hparsed, hwords]
    exact List.mem_append_right _ List.mem_cons_self
  | comment h => exact h.2.2
  | pattern h =>
    obtain ⟨pattern, states, before, attr, after, hparsed, -, hwords, -, -, htouches⟩ := h
    refine ⟨attr, ?_, htouches⟩
    rw [attributes_of_attributesLine hparsed, hwords]
    exact List.mem_append_right _ List.mem_cons_self

/-- **The two readings of a line.**  Where the code lets a line pass, Git reads the attribute
`filter` in it exactly when it is of one of the three kinds. -/
theorem touchesFilter_iff (hplain : ¬PlainFilter line) : TouchesFilter line ↔ Evades line :=
  ⟨fun h => evades_of_touchesFilter h hplain, touchesFilter_of_evades⟩

/-- **When the validation keeps `filter` out.**  The validation meets its purpose on a file,
that an accepted file has no line that touches `filter`, exactly when no line of the file
is of one of the three kinds, or a line has a plain field that names `filter`. -/
theorem validateAttributes_iff (contents : List UInt8) :
    (validateAttributes contents = .ok () →
      ∀ line ∈ contents.splitOn 10, ¬TouchesFilter line) ↔
    (∀ line ∈ contents.splitOn 10, ¬Evades line) ∨
      ∃ line ∈ contents.splitOn 10, PlainFilter line := by
  have hok : validateAttributes contents = .ok () ↔
      ∀ line ∈ contents.splitOn 10, ¬PlainFilter line := by
    rw [validateAttributes, forM_eq_ok]
    exact forall₂_congr fun line _ => validateAttributesLine_iff
  rw [hok]
  by_cases hplain : ∃ line ∈ contents.splitOn 10, PlainFilter line
  · refine iff_of_true (fun hnone => ?_) (Or.inr hplain)
    obtain ⟨line, hline, h⟩ := hplain
    exact absurd h (hnone line hline)
  · have hnone : ∀ line ∈ contents.splitOn 10, ¬PlainFilter line :=
      fun line hline h => hplain ⟨line, hline, h⟩
    rw [or_iff_left hplain, imp_iff_right hnone]
    exact forall₂_congr fun line hline => not_congr (touchesFilter_iff (hnone line hline))

/-- The line `"a"filter=x` is accepted, and to Git it assigns `filter`: Git ends a quoted pattern
at its quote, with or without a blank. -/
theorem accepts_glued_filter : validateAttributes (ascii "\"a\"filter=x\n") = .ok () ∧
    ∃ line ∈ (ascii "\"a\"filter=x\n").splitOn 10, TouchesFilter line := by
  have hlines : (ascii "\"a\"filter=x\n").splitOn 10 = [ascii "\"a\"filter=x", []] := by
    simp [ascii, List.splitOn_eq_splitOnP, List.splitOnP_cons_eq_if_modifyHead]
  have hfields : words isAsciiWhitespace (ascii "\"a\"filter=x") = [ascii "\"a\"filter=x"] :=
    words_of_isWord ⟨by decide, forall_mem_of_all (by decide)⟩
  have hquoted : attributesLine (ascii "\"a\"filter=x") = some (ascii "a", ascii "filter=x") := by
    simp [attributesLine, quotedPattern, unquoteCStyle, ascii, isGitBlank]
  have hattributes : words isGitBlank (ascii "filter=x") = [ascii "filter=x"] :=
    words_of_isWord ⟨by decide, forall_mem_of_all (by decide)⟩
  constructor
  · rw [validateAttributes, forM_eq_ok, hlines]
    intro line hline
    rw [validateAttributesLine_iff]
    rintro ⟨-, field, hfield, -⟩
    rcases List.mem_cons.mp hline with rfl | hline
    · rw [hfields] at hfield
      cases hfield
    · rw [List.mem_singleton.mp hline, words_nil] at hfield
      cases hfield
  · refine ⟨ascii "\"a\"filter=x", by rw [hlines]; exact List.mem_cons_self, ascii "filter=x",
      ?_, .assigned (ascii "x")⟩
    rw [attributes_of_attributesLine hquoted, hattributes]
    exact List.mem_cons_self

end Git
end ThinWorkspace
