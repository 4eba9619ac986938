/-
# Segments after a separator

A text in which a separator stands before each of a list of segments, such as a
canonical absolute path: `join` writes it and `List.splitOn` takes it apart.
One text continues another at a separator exactly when its segments continue the
other's (`prefix_of_continues` and `join_append`).
-/

import Mathlib.Data.List.Infix

namespace ThinWorkspace
namespace Lib
namespace Segments

variable {α : Type} {sep : α} {segments other : List (List α)} {segment : List α}

/-- The text of the segments: each is preceded by the separator, so that a text of one segment or
more begins with it. -/
def join (sep : α) (segments : List (List α)) : List α := segments.flatMap (sep :: ·)

/-- Joining is a morphism: the text of two lists of segments, one after the other, is the one text
followed by the other. -/
theorem join_append : join sep (segments ++ other) = join sep segments ++ join sep other :=
  List.flatMap_append

/-- One segment more is one separator and that segment at the end of the text, as `Path::join`
appends a component. -/
theorem join_concat :
    join sep (segments ++ [segment]) = join sep segments ++ sep :: segment := by
  rw [join_append]
  simp [join]

/-- The text of at least one segment is not empty, since it has that segment's separator. -/
theorem join_ne_nil (h : segments ≠ []) : join sep segments ≠ [] := by
  cases segments with
  | nil => exact absurd rfl h
  | cons s segments => simp [join]

/-- Every segment stands in the text. -/
theorem infix_join (h : segment ∈ segments) : segment <:+: join sep segments := by
  obtain ⟨before, after, rfl⟩ := List.append_of_mem h
  refine ⟨join sep before ++ [sep], join sep after, ?_⟩
  rw [join_append, List.append_assoc, List.append_assoc]
  simp [join]

/-- The text without its first separator is the segments with a separator between two, the form
that `List.splitOn` inverts. -/
theorem join_cons_eq (h : segments ≠ []) :
    join sep segments = sep :: [sep].intercalate segments := by
  induction segments with
  | nil => exact absurd rfl h
  | cons s segments ih =>
    cases segments with
    | nil => simp [join]
    | cons t segments =>
      have hrest := ih (List.cons_ne_nil _ _)
      rw [List.intercalate_cons_cons]
      show sep :: s ++ join sep (t :: segments) = _
      rw [hrest]
      simp

/-- Segments that each end with the separator are those with a separator between two, and one
after the last. -/
theorem flatMap_terminated (h : segments ≠ []) :
    segments.flatMap (· ++ [sep]) = [sep].intercalate segments ++ [sep] := by
  induction segments with
  | nil => exact absurd rfl h
  | cons s segments ih =>
    cases segments with
    | nil => simp
    | cons t segments =>
      have hrest := ih (List.cons_ne_nil _ _)
      rw [List.flatMap_cons, hrest, List.intercalate_cons_cons]
      simp

variable [DecidableEq α]

/-- **Splitting undoes joining** on segments without a separator. -/
theorem splitOn_join (hsegments : ∀ s ∈ segments, sep ∉ s) (h : segments ≠ []) :
    (join sep segments).tail.splitOn sep = segments := by
  rw [join_cons_eq h, List.tail_cons]
  exact List.splitOn_intercalate sep hsegments h

/-- **Joining undoes splitting** on a text that begins with a separator. -/
theorem join_splitOn {text : List α} (h : text.head? = some sep) :
    join sep (text.tail.splitOn sep) = text := by
  obtain ⟨tail, rfl⟩ := List.head?_eq_some_iff.mp h
  rw [join_cons_eq (List.splitOn_ne_nil sep _), List.intercalate_splitOn, List.tail_cons]

/-- The parts of a split text have no separator. -/
theorem not_mem_of_mem_splitOn {text : List α} (h : segment ∈ text.splitOn sep) :
    sep ∉ segment := by
  induction text generalizing segment with
  | nil =>
    rw [List.splitOn_nil, List.mem_singleton] at h
    rw [h]
    exact List.not_mem_nil
  | cons a text ih =>
    rw [List.splitOn_cons_eq_if_modifyHead] at h
    by_cases ha : (a == sep) = true
    · rw [if_pos ha] at h
      rcases List.mem_cons.mp h with rfl | h
      · exact List.not_mem_nil
      · exact ih h
    · rw [if_neg ha] at h
      cases hsplit : text.splitOn sep with
      | nil => exact absurd hsplit (List.splitOn_ne_nil sep text)
      | cons first rest =>
        rw [hsplit] at h ih
        rcases List.mem_cons.mp h with rfl | h
        · intro hmem
          rcases List.mem_cons.mp hmem with rfl | hmem
          · exact ha (beq_self_eq_true _)
          · exact ih List.mem_cons_self hmem
        · exact ih (List.mem_cons_of_mem _ h)

/-- **Continuation at a separator.**  A text that goes on with a separator has the segments of the
first text before its own. -/
theorem prefix_of_continues {text rest : List α} (h : text.head? = some sep) :
    text.tail.splitOn sep <+: (text ++ sep :: rest).tail.splitOn sep := by
  obtain ⟨tail, rfl⟩ := List.head?_eq_some_iff.mp h
  rw [List.cons_append, List.tail_cons, List.tail_cons, List.splitOn_append_cons_self]
  exact List.prefix_append _ _

/-- The place of the last separator of a text whose last segment has none. -/
theorem findIdx?_reverse {before last : List α} (h : sep ∉ last) :
    (before ++ sep :: last).reverse.findIdx? (· == sep) = some last.length := by
  rw [List.reverse_append, List.reverse_cons, List.append_assoc, List.findIdx?_append]
  have hlast : last.reverse.findIdx? (· == sep) = none := by
    rw [List.findIdx?_eq_none_iff]
    intro a ha
    rw [beq_eq_false_iff_ne]
    rintro rfl
    exact h (List.mem_reverse.mp ha)
  rw [hlast]
  simp [List.findIdx?_cons]

end Segments
end Lib
end ThinWorkspace
