/-
# Words between blanks

The nonempty parts of a text between the elements that a predicate calls blank.
A word stands in its text between blanks or ends (`exists_of_mem_words`), and a
part that stands so is a word, with the words before it and after it around
(`words_middle`).  Two notions of blank are compared through these two lemmas.
-/

import Mathlib.Data.List.DropRight

namespace ThinWorkspace
namespace Lib
namespace Words

variable {α : Type} {p : α → Bool} {a : α} {text before after word : List α}

/-- The words of a text: what is left of its parts between blanks when the empty ones are gone. -/
def words (p : α → Bool) (text : List α) : List (List α) :=
  (text.splitOnP p).filter fun part => !part.isEmpty

/-- The text is empty or ends with a blank. -/
def BlankBefore (p : α → Bool) (text : List α) : Prop := ∀ a ∈ text.getLast?, p a = true

/-- The text is empty or begins with a blank. -/
def BlankAfter (p : α → Bool) (text : List α) : Prop := ∀ a ∈ text.head?, p a = true

/-- A text that is not empty and has no blank. -/
structure IsWord (p : α → Bool) (word : List α) : Prop where
  ne_nil : word ≠ []
  no_blank : ∀ a ∈ word, p a = false

/-- A blank divides the words of a text: those before it and those behind it are found apart. -/
theorem words_append_cons (before after : List α) (h : p a = true) :
    words p (before ++ a :: after) = words p before ++ words p after := by
  unfold words
  rw [List.splitOnP_append_cons _ _ h, List.filter_append]

/-- An empty text has no word, since nothing stands between its ends. -/
@[simp] theorem words_nil : words p [] = [] := by simp [words]

/-- A blank at the beginning adds no word, so leading blanks can be dropped. -/
theorem words_cons (h : p a = true) (text : List α) : words p (a :: text) = words p text := by
  simpa using words_append_cons [] text h

/-- A blank at the end adds no word, so trailing blanks can be dropped. -/
theorem words_concat (h : p a = true) (text : List α) : words p (text ++ [a]) = words p text := by
  simpa using words_append_cons text [] h

/-- A word is the one word of itself, since no blank divides it. -/
theorem words_of_isWord (h : IsWord p word) : words p word = [word] := by
  unfold words
  rw [List.splitOnP_eq_singleton h.no_blank]
  simp [h.ne_nil]

/-- Blanks at the beginning and the end do not matter. -/
theorem words_dropWhile (text : List α) : words p (text.dropWhile p) = words p text := by
  induction text with
  | nil => rfl
  | cons a text ih =>
    by_cases h : p a = true
    · rw [List.dropWhile_cons_of_pos h, ih, words_cons h]
    · rw [List.dropWhile_cons_of_neg h]

/-- Blanks at the end do not matter, by induction from the end of the text. -/
theorem words_rdropWhile (text : List α) : words p (text.rdropWhile p) = words p text := by
  induction text using List.reverseRecOn with
  | nil => simp
  | append_singleton text a ih =>
    by_cases h : p a = true
    · rw [List.rdropWhile_concat_pos _ _ _ h, ih, words_concat h]
    · rw [List.rdropWhile_concat_neg _ _ _ h]

/-- Cutting the end off keeps the first element, where that is no blank. -/
theorem head?_rdropWhile (h : ∀ a ∈ text.head?, p a = false) :
    (text.rdropWhile p).head? = text.head? := by
  cases text with
  | nil => rfl
  | cons a text =>
    have ha : p a = false := h a rfl
    have hne : (a :: text).rdropWhile p ≠ [] := by
      rw [Ne, List.rdropWhile_eq_nil_iff]
      intro hall
      rw [hall a List.mem_cons_self] at ha
      cases ha
    obtain ⟨b, rest, hcut⟩ := List.exists_cons_of_ne_nil hne
    obtain ⟨after, hafter⟩ := List.rdropWhile_prefix p (a :: text)
    rw [hcut, List.cons_append] at hafter
    rw [hcut, List.head?_cons, List.head?_cons, (List.cons.inj hafter).1]

/-- What follows a blank begins a word of its own. -/
theorem words_append_of_blankBefore (h : BlankBefore p before) (after : List α) :
    words p (before ++ after) = words p before ++ words p after := by
  induction before using List.reverseRecOn with
  | nil => simp
  | append_singleton before a _ =>
    have ha : p a = true := h a (by simp)
    rw [words_concat ha, List.append_assoc, List.singleton_append, words_append_cons _ _ ha]

/-- What ends before a blank ends its word there. -/
theorem words_append_of_blankAfter (h : BlankAfter p after) (before : List α) :
    words p (before ++ after) = words p before ++ words p after := by
  cases after with
  | nil => simp
  | cons a after =>
    have ha : p a = true := h a (by simp)
    rw [words_append_cons _ _ ha, words_cons ha]

/-- **A part between blanks is a word**, and the words of the text are those before it, itself, and
those behind it. -/
theorem words_middle (hbefore : BlankBefore p before) (hword : IsWord p word)
    (hafter : BlankAfter p after) :
    words p (before ++ (word ++ after)) = words p before ++ word :: words p after := by
  rw [words_append_of_blankBefore hbefore, words_append_of_blankAfter hafter,
    words_of_isWord hword, List.singleton_append]

/-- A text of blanks has no word, and no other text has none. -/
theorem words_eq_nil_iff : words p text = [] ↔ ∀ a ∈ text, p a = true := by
  induction text with
  | nil => simp
  | cons a text ih =>
    by_cases h : p a = true
    · rw [words_cons h, ih]
      simp [h]
    · refine iff_of_false ?_ (by simp [h])
      unfold words
      rw [List.splitOnP_cons_eq_if_modifyHead, if_neg h]
      obtain ⟨first, rest, hsplit⟩ := List.exists_cons_of_ne_nil (List.splitOnP_ne_nil p text)
      simp [hsplit]

/-- Where the parts of a text stand: the first one at its beginning, every other one after
a blank, and all of them before a blank or the end. -/
theorem splitOnP_places (p : α → Bool) (text : List α) : ∃ first rest,
    text.splitOnP p = first :: rest ∧
    (∃ after, text = first ++ after ∧ BlankAfter p after ∧ ∀ a ∈ first, p a = false) ∧
    ∀ part ∈ rest, ∃ before blank after, text = before ++ blank :: (part ++ after) ∧
      p blank = true ∧ BlankAfter p after ∧ ∀ a ∈ part, p a = false := by
  induction text with
  | nil => exact ⟨[], [], by simp, ⟨[], by simp [BlankAfter]⟩, by simp⟩
  | cons a text ih =>
    obtain ⟨first, rest, hsplit, ⟨after, htext, hafter, hfirst⟩, hrest⟩ := ih
    have hshift : ∀ part ∈ rest, ∃ before blank after,
        a :: text = before ++ blank :: (part ++ after) ∧ p blank = true ∧ BlankAfter p after ∧
          ∀ b ∈ part, p b = false := by
      intro part hpart
      obtain ⟨before, blank, after, htext, hblank⟩ := hrest part hpart
      exact ⟨a :: before, blank, after, by rw [htext, List.cons_append], hblank⟩
    rw [List.splitOnP_cons_eq_if_modifyHead, hsplit]
    by_cases h : p a = true
    · rw [if_pos h]
      refine ⟨[], first :: rest, rfl, ⟨a :: text, rfl, by simp [BlankAfter, h], by simp⟩, ?_⟩
      intro part hpart
      rcases List.mem_cons.mp hpart with rfl | hpart
      · exact ⟨[], a, after, by rw [htext, List.nil_append], h, hafter, hfirst⟩
      · exact hshift part hpart
    · rw [if_neg h]
      refine ⟨a :: first, rest, rfl, ⟨after, by rw [htext, List.cons_append], hafter, ?_⟩,
        hshift⟩
      intro b hb
      rcases List.mem_cons.mp hb with rfl | hb
      · simpa using h
      · exact hfirst b hb

/-- **A word stands between blanks**, or at an end of the text: where a word was found, the text
can be taken apart around it. -/
theorem exists_of_mem_words (h : word ∈ words p text) : ∃ before after,
    text = before ++ (word ++ after) ∧ BlankBefore p before ∧ BlankAfter p after ∧
      IsWord p word := by
  obtain ⟨first, rest, hsplit, ⟨after, htext, hafter, hfirst⟩, hrest⟩ := splitOnP_places p text
  unfold words at h
  rw [hsplit, List.mem_filter] at h
  have hne : word ≠ [] := by simpa using h.2
  rcases List.mem_cons.mp h.1 with rfl | hmem
  · exact ⟨[], after, htext, by simp [BlankBefore], hafter, hne, hfirst⟩
  · obtain ⟨before, blank, after, htext, hblank, hafter, hword⟩ := hrest word hmem
    exact ⟨before ++ [blank], after, by simpa using htext, by simp [BlankBefore, hblank], hafter,
      hne, hword⟩

end Words
end Lib
end ThinWorkspace
