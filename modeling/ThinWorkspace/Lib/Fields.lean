/-
# Fields between separators

A text taken apart at its separators.  `cut` is the first field and the rest,
`splitn` the fields of a text of which the last one keeps its separators;
`splitn_iff` says that a list of fields is what `splitn` finds exactly when it
makes the text.
-/

import Mathlib.Data.List.Basic

namespace ThinWorkspace
namespace Lib
namespace Fields

variable {α : Type} [DecidableEq α] {sep : α} {text before after : List α}

/-- The text before and after the first separator, where there is one: `split_once`. -/
def cut (sep : α) (text : List α) : Option (List α × List α) :=
  (text.findIdx? (· == sep)).map fun i => (text.take i, text.drop (i + 1))

/-- A cut by its first symbol: here, or further on. -/
theorem cut_cons (a : α) (text : List α) : cut sep (a :: text) =
    if a = sep then some ([], text) else (cut sep text).map fun (b, c) => (a :: b, c) := by
  unfold cut
  rw [List.findIdx?_cons]
  by_cases ha : a = sep
  · simp [ha]
  · simp [ha, Function.comp_def]

/-- A cut has the first separator of the text between its parts. -/
theorem cut_eq_some :
    cut sep text = some (before, after) ↔ text = before ++ sep :: after ∧ sep ∉ before := by
  induction text generalizing before with
  | nil => simp [cut]
  | cons a text ih =>
    rw [cut_cons]
    by_cases ha : a = sep
    · rw [if_pos ha, ha]
      cases before with
      | nil => simp
      | cons b before =>
        have hno : ¬(sep :: text = b :: before ++ sep :: after ∧ sep ∉ b :: before) := by
          rintro ⟨he, hsep⟩
          exact hsep (List.mem_cons.mpr (Or.inl (List.cons.inj he).1))
        simpa using hno
    · rw [if_neg ha]
      cases before with
      | nil => simp [ha]
      | cons b before =>
        have hmap : (cut sep text).map (fun (b, c) => (a :: b, c)) = some (b :: before, after) ↔
            a = b ∧ cut sep text = some (before, after) := by
          cases cut sep text with
          | none => simp
          | some parts =>
            obtain ⟨x, y⟩ := parts
            simp
            tauto
        rw [hmap, ih]
        constructor
        · rintro ⟨rfl, rfl, hsep⟩
          exact ⟨rfl, by simpa [Ne.symm ha] using hsep⟩
        · rintro ⟨he, hsep⟩
          obtain ⟨rfl, rfl⟩ := List.cons.inj he
          exact ⟨rfl, rfl, fun h => hsep (List.mem_cons_of_mem _ h)⟩

/-- A text that is put together at its first separator is cut there. -/
theorem cut_append (h : sep ∉ before) : cut sep (before ++ sep :: after) = some (before, after) :=
  cut_eq_some.mpr ⟨rfl, h⟩

/-- A text without a separator is not cut. -/
theorem cut_eq_none : cut sep text = none ↔ sep ∉ text := by
  unfold cut
  rw [Option.map_eq_none_iff, List.findIdx?_eq_none_iff]
  constructor
  · intro h hsep
    simpa using h sep hsep
  · intro h a ha
    rw [beq_eq_false_iff_ne]
    rintro rfl
    exact h ha

/-- What is left after a cut is shorter. -/
theorem length_lt_of_cut (h : cut sep text = some (before, after)) :
    after.length < text.length := by
  obtain ⟨rfl, -⟩ := cut_eq_some.mp h
  simp only [List.length_append, List.length_cons]
  omega

omit [DecidableEq α] in
/-- A symbol of fields put together is the separator or one of a field. -/
theorem mem_intercalate {fields : List (List α)} {a : α} (h : a ∈ [sep].intercalate fields) :
    a = sep ∨ ∃ field ∈ fields, a ∈ field := by
  induction fields with
  | nil => simp at h
  | cons first rest ih =>
    cases rest with
    | nil => exact Or.inr ⟨first, by simpa using h⟩
    | cons second rest =>
      rw [List.intercalate_cons_cons, List.mem_append, List.mem_append] at h
      rcases h with (h | h) | h
      · exact Or.inr ⟨first, List.mem_cons_self, h⟩
      · exact Or.inl (List.mem_singleton.mp h)
      · rcases ih h with h | ⟨field, hfield, h⟩
        · exact Or.inl h
        · exact Or.inr ⟨field, List.mem_cons_of_mem _ hfield, h⟩

omit [DecidableEq α] in
/-- The symbols of a field are symbols of the text. -/
theorem mem_intercalate_of_mem {fields : List (List α)} {field : List α} {a : α}
    (hfield : field ∈ fields) (h : a ∈ field) : a ∈ [sep].intercalate fields := by
  induction fields with
  | nil => cases hfield
  | cons first rest ih =>
    cases rest with
    | nil => simpa [← List.mem_singleton.mp hfield] using h
    | cons second rest =>
      rw [List.intercalate_cons_cons, List.mem_append]
      rcases List.mem_cons.mp hfield with rfl | hfield
      · exact Or.inl (List.mem_append_left _ h)
      · exact Or.inr (ih hfield)

/-! ### A fixed number of fields

`splitn` cuts at most `n - 1` times, so its last field keeps whatever separators are left.
`splitn_iff` is what the users of it need: a list of `n + 1` fields is the result exactly
when it makes the text again and only its last field may hold a separator. -/

/-- At most `n` fields, the last one with the separators that are left, as `splitn` of a Rust slice
has them. -/
def splitn (sep : α) : ℕ → List α → List (List α)
  | 0, _ => []
  | 1, text => [text]
  | n + 2, text =>
    match cut sep text with
    | none => [text]
    | some (before, after) => before :: splitn sep (n + 1) after

/-- There are no more fields than were asked for. -/
theorem length_splitn_le (n : ℕ) (text : List α) : (splitn sep n text).length ≤ n := by
  induction n generalizing text with
  | zero => simp [splitn]
  | succ n ih =>
    cases n with
    | zero => simp [splitn]
    | succ n =>
      rw [splitn]
      split
      · simp
      · simpa using ih _

/-- **The fields of a text.**  `n + 1` fields are what `splitn` finds exactly when
they make the text and only the last one may have a separator. -/
theorem splitn_iff {n : ℕ} {fields : List (List α)} (h : fields.length = n + 1) :
    splitn sep (n + 1) text = fields ↔
      text = [sep].intercalate fields ∧ ∀ field ∈ fields.dropLast, sep ∉ field := by
  induction n generalizing text fields with
  | zero =>
    obtain ⟨field, rfl⟩ := List.length_eq_one_iff.mp h
    simp [splitn]
  | succ n ih =>
    match fields, h with
    | first :: second :: rest, h =>
      have hlength : (second :: rest).length = n + 1 := by simpa using h
      rw [List.intercalate_cons_cons, List.dropLast_cons_cons, List.forall_mem_cons, splitn]
      cases hcut : cut sep text with
      | none =>
        have hsep := cut_eq_none.mp hcut
        constructor
        · intro he
          simp at he
        · rintro ⟨rfl, -⟩
          simp at hsep
      | some parts =>
        obtain ⟨before, after⟩ := parts
        have hparts := cut_eq_some.mp hcut
        rw [List.cons.injEq, ih hlength]
        constructor
        · rintro ⟨rfl, rfl, hfields⟩
          exact ⟨by simpa using hparts.1, hparts.2, hfields⟩
        · rintro ⟨he, hfirst, hfields⟩
          have hcut' : cut sep text = some (first, [sep].intercalate (second :: rest)) :=
            cut_eq_some.mpr ⟨by simpa using he, hfirst⟩
          rw [hcut] at hcut'
          obtain ⟨rfl, rfl⟩ := Prod.mk.inj (Option.some.inj hcut')
          exact ⟨rfl, rfl, hfields⟩

end Fields
end Lib
end ThinWorkspace
