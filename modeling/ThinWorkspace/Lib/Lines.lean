/-
# Lines of a text

A text is a sequence of terminated lines and a remainder, what stands behind the last
terminator.  `lines` and `remainder` take a text apart; `lines_append` says that reading
a text goes on from the remainder of what was read.  What a text gains at its end is then
one of two cases: `lines_append_terminator` ends the remainder as a line of its own, and
`lines_append_line` adds one line to a text without a remainder.
-/

import Mathlib.Data.List.Basic

namespace ThinWorkspace
namespace Lib

variable {α : Type} [DecidableEq α] (terminator : α)

/-- Reads on, with the part of a line that was read before: the lines terminated on the
way, and the part read of the next one. -/
def readLines : List α → List α → List (List α) × List α
  | current, [] => ([], current)
  | current, c :: text =>
    if c = terminator then
      (current :: (readLines [] text).1, (readLines [] text).2)
    else readLines (current ++ [c]) text

/-- The terminated lines of a text, without their terminators. -/
def lines (text : List α) : List (List α) := (readLines terminator [] text).1

/-- What a text holds behind its last terminator. -/
def remainder (text : List α) : List α := (readLines terminator [] text).2

variable {terminator} {current text rest line : List α}

/-- Reading a continued text goes on where reading the text stopped. -/
theorem readLines_append :
    readLines terminator current (text ++ rest) =
      ((readLines terminator current text).1 ++
          (readLines terminator (readLines terminator current text).2 rest).1,
        (readLines terminator (readLines terminator current text).2 rest).2) := by
  induction text generalizing current with
  | nil => rfl
  | cons c text ih =>
    by_cases hc : c = terminator
    · simp [readLines, hc, ih]
    · simp [readLines, hc, ih]

/-- A terminator ends the line under way. -/
theorem readLines_terminator :
    readLines terminator current [terminator] = ([current], []) := by
  simp [readLines]

/-- Reading what is not a terminator ends no line. -/
theorem readLines_line (h : terminator ∉ line) :
    readLines terminator current line = ([], current ++ line) := by
  induction line generalizing current with
  | nil => simp [readLines]
  | cons c line ih =>
    have hc : c ≠ terminator := fun he => h (he ▸ List.mem_cons_self)
    have hline : terminator ∉ line := fun hmem => h (List.mem_cons_of_mem c hmem)
    simp [readLines, hc, ih hline]

/-- The lines of a continued text are its lines and those that the remainder and the rest make. -/
theorem lines_append :
    lines terminator (text ++ rest) =
      lines terminator text ++ (readLines terminator (remainder terminator text) rest).1 := by
  unfold lines remainder
  rw [readLines_append]

/-- The remainder of a continued text is what is left of the remainder and the rest. -/
theorem remainder_append :
    remainder terminator (text ++ rest) =
      (readLines terminator (remainder terminator text) rest).2 := by
  unfold remainder
  rw [readLines_append]

/-- A terminator behind a text makes its remainder the last line. -/
theorem lines_append_terminator :
    lines terminator (text ++ [terminator]) =
      lines terminator text ++ [remainder terminator text] := by
  rw [lines_append, readLines_terminator]

/-- Behind a terminator nothing remains. -/
theorem remainder_append_terminator : remainder terminator (text ++ [terminator]) = [] := by
  rw [remainder_append, readLines_terminator]

/-- A terminated line behind a text without a remainder is its last line. -/
theorem lines_append_line (hline : terminator ∉ line) (htext : remainder terminator text = []) :
    lines terminator (text ++ (line ++ [terminator])) = lines terminator text ++ [line] := by
  rw [lines_append, htext, readLines_append, readLines_line hline, readLines_terminator]
  rfl

/-- A text that ends with a terminator has no remainder. -/
theorem remainder_eq_nil (h : text.getLast? = some terminator) :
    remainder terminator text = [] := by
  have hne : text ≠ [] := by
    rintro rfl
    cases h
  have hlast : text.getLast hne = terminator := by
    rw [List.getLast?_eq_some_getLast hne] at h
    exact Option.some.inj h
  rw [← List.dropLast_append_getLast hne, hlast, remainder_append_terminator]

/-- A text that ends with something else has one. -/
theorem remainder_ne_nil {last : α} (h : text.getLast? = some last) (hlast : last ≠ terminator) :
    remainder terminator text ≠ [] := by
  have hne : text ≠ [] := by
    rintro rfl
    cases h
  have he : text.getLast hne = last := by
    rw [List.getLast?_eq_some_getLast hne] at h
    exact Option.some.inj h
  have hread : readLines terminator (remainder terminator text.dropLast) [last] =
      ([], remainder terminator text.dropLast ++ [last]) :=
    readLines_line fun hmem => hlast (List.mem_singleton.mp hmem).symm
  rw [← List.dropLast_append_getLast hne, he, remainder_append, hread]
  simp

end Lib
end ThinWorkspace
