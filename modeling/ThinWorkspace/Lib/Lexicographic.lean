/-
# Sorting by a computed order

`LinearLe le` says that a computed comparison is a linear order; the lexicographic
comparison of lists is one where that of the elements is (`LinearLe.lex`).  A list that is
sorted by such an order and freed of adjacent repetitions has each element once, in order:
`mem_sortDedup` and `pairwise_sortDedup`.
-/

import Mathlib.Data.List.Destutter

namespace ThinWorkspace
namespace Lib
namespace Lexicographic

variable {α : Type} {le : α → α → Bool} {a b : α} {l : List α}

/-- A comparison that is a linear order.  It is a function to `Bool`, as a sort of the source has
one, so that sorting by it computes. -/
structure LinearLe (le : α → α → Bool) : Prop where
  total : ∀ a b, le a b = true ∨ le b a = true
  trans : ∀ a b c, le a b = true → le b c = true → le a c = true
  antisymm : ∀ a b, le a b = true → le b a = true → a = b

/-- Every element is as small as itself. -/
theorem LinearLe.refl (h : LinearLe le) (a : α) : le a a = true := (h.total a a).elim id id

/-- Sorting by it puts every element before those that are larger. -/
theorem LinearLe.pairwise_mergeSort (h : LinearLe le) (l : List α) :
    (l.mergeSort le).Pairwise fun a b => le a b = true := by
  refine List.pairwise_mergeSort h.trans (fun a b => ?_) l
  rw [Bool.or_eq_true]
  exact h.total a b

/-- Bytes are compared by their values. -/
theorem linearLe_byte : LinearLe fun a b : UInt8 => decide (a.toNat ≤ b.toNat) where
  total a b := by simpa using Nat.le_total a.toNat b.toNat
  trans a b c hab hbc := by
    simp only [decide_eq_true_eq] at hab hbc ⊢
    omega
  antisymm a b hab hba := by
    simp only [decide_eq_true_eq] at hab hba
    exact UInt8.toNat_inj.mp (by omega)

variable [DecidableEq α]

/-- The lexicographic comparison of two lists: by the first elements that differ, and a list before
those that continue it. -/
def lex (le : α → α → Bool) : List α → List α → Bool
  | [], _ => true
  | _ :: _, [] => false
  | a :: as, b :: bs => if a = b then lex le as bs else le a b

/-- **Lists are ordered lexicographically.**  The comparison of lists is a linear order where that
of the elements is. -/
theorem LinearLe.lex (h : LinearLe le) : LinearLe (lex le) where
  total := by
    intro as
    induction as with
    | nil => exact fun _ => .inl rfl
    | cons a as ih =>
      intro bs
      cases bs with
      | nil => exact .inr rfl
      | cons b bs =>
        by_cases hab : a = b
        · simpa [Lexicographic.lex, hab] using ih bs
        · simpa [Lexicographic.lex, hab, Ne.symm hab] using h.total a b
  trans := by
    intro as
    induction as with
    | nil => exact fun _ _ _ _ => rfl
    | cons a as ih =>
      intro bs cs hab hbc
      cases bs with
      | nil => cases hab
      | cons b bs =>
        cases cs with
        | nil => cases hbc
        | cons c cs =>
          rw [Lexicographic.lex] at hab hbc ⊢
          by_cases hac : a = c
          · rw [if_pos hac]
            by_cases he : a = b
            · rw [if_pos he] at hab
              rw [if_pos (he.symm.trans hac)] at hbc
              exact ih bs cs hab hbc
            · rw [if_neg he] at hab
              rw [if_neg (fun hb => he (hac.trans hb.symm)), ← hac] at hbc
              exact absurd (h.antisymm a b hab hbc) he
          · rw [if_neg hac]
            by_cases he : a = b
            · rw [if_neg (he ▸ hac), ← he] at hbc
              exact hbc
            · rw [if_neg he] at hab
              by_cases hb : b = c
              · exact hb ▸ hab
              · rw [if_neg hb] at hbc
                exact h.trans a b c hab hbc
  antisymm := by
    intro as
    induction as with
    | nil =>
      intro bs _ hba
      cases bs with
      | nil => rfl
      | cons b bs => cases hba
    | cons a as ih =>
      intro bs hab hba
      cases bs with
      | nil => cases hab
      | cons b bs =>
        rw [Lexicographic.lex] at hab hba
        by_cases he : a = b
        · rw [if_pos he] at hab
          rw [if_pos he.symm] at hba
          rw [he, ih bs hab hba]
        · rw [if_neg he] at hab
          rw [if_neg (Ne.symm he)] at hba
          exact absurd (h.antisymm a b hab hba) he

/-! ### Sorting

A sorted list without repetitions is determined by its elements.  `sortDedup` of a source
drops adjacent repetitions only; as all of them are adjacent behind a sort, the result has
every element of the list once, in the order, and in no other place. -/

omit [DecidableEq α] in
/-- Two elements are sorted by one comparison. -/
theorem mergeSort_pair (le : α → α → Bool) (a b : α) :
    [a, b].mergeSort le = if le a b then [a, b] else [b, a] := by
  simp [List.mergeSort, List.MergeSort.Internal.splitInTwo, List.merge]

/-- `sort` and `dedup` of a vector: sorted, and without adjacent repetitions. -/
def sortDedup (le : α → α → Bool) (l : List α) : List α :=
  (l.mergeSort le).destutter (· ≠ ·)

/-- Behind a sort all repetitions are adjacent, so none is left. -/
theorem sortDedup_eq (h : LinearLe le) : sortDedup le l = (l.mergeSort le).dedup := by
  have hanti : Std.Antisymm fun a b : α => le a b = true := ⟨h.antisymm⟩
  exact (h.pairwise_mergeSort l).destutter_eq_dedup

/-- Sorting and freeing of repetitions loses no element. -/
@[simp] theorem mem_sortDedup (h : LinearLe le) : a ∈ sortDedup le l ↔ a ∈ l := by
  rw [sortDedup_eq h, List.mem_dedup, List.mem_mergeSort]

/-- Every element is before the ones after it, and other than they are. -/
theorem pairwise_sortDedup (h : LinearLe le) :
    (sortDedup le l).Pairwise fun a b => le a b = true ∧ a ≠ b := by
  have hnodup : (sortDedup le l).Nodup := sortDedup_eq h ▸ List.nodup_dedup _
  have hsorted : (sortDedup le l).Pairwise fun a b => le a b = true :=
    (h.pairwise_mergeSort l).sublist (List.destutter_sublist _ _)
  exact hsorted.and hnodup

end Lexicographic
end Lib
end ThinWorkspace
