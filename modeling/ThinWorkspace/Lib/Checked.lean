/-
# Sums that are checked as they grow

A counter of a fixed width adds one amount after the other and gives up at the first sum
that does not fit.  As the amounts are not negative, it ends exactly where the last sum
fits (`foldlM_checked_iff`): no sum on the way can be too large when the last is not.

Where an amount belongs to a key and is added the first time the key is met, the counter
has the sum over the set of keys (`ite_add_eq_sum`).
-/

import Mathlib.Algebra.BigOperators.Group.Finset.Basic

namespace ThinWorkspace
namespace Lib

/-- `checked_add` of unsigned integers, of which `limit` is the largest. -/
def addWithin (limit a b : ℕ) : Option ℕ := if a + b ≤ limit then some (a + b) else none

/-- It has a result where the sum fits, and then the result is the sum. -/
theorem addWithin_eq_some {limit a b c : ℕ} :
    addWithin limit a b = some c ↔ c = a + b ∧ c ≤ limit := by
  unfold addWithin
  split
  · rename_i h
    constructor
    · rintro ⟨⟩
      exact ⟨rfl, h⟩
    · rintro ⟨rfl, -⟩
      rfl
  · rename_i h
    constructor
    · rintro ⟨⟩
    · rintro ⟨rfl, hle⟩
      exact absurd hle h

section Checked

variable {σ α : Type} {step : σ → α → Option σ} {add : σ → α → σ}
variable {Fine : α → Prop} {Bounded Inv : σ → Prop}

/-- No sum on the way is out of bounds when the last is not, as no amount is negative. -/
theorem bounded_of_foldl (hgrow : ∀ s a, Bounded (add s a) → Bounded s) (as : List α) {s : σ}
    (h : Bounded (as.foldl add s)) : Bounded s := by
  induction as generalizing s with
  | nil => exact h
  | cons a as ih => exact hgrow s a (ih h)

/-- **A checked sum ends exactly where the last sum is in bounds.**  `add` is the step of
the sum without the check, `Fine` what an amount must satisfy on its own, and `Inv` what
`add` keeps. -/
theorem foldlM_checked_iff {as : List α}
    (hstep : ∀ a ∈ as, ∀ s s', Inv s → Bounded s →
      (step s a = some s' ↔ Fine a ∧ s' = add s a ∧ Bounded s'))
    (hinv : ∀ a ∈ as, ∀ s, Inv s → Inv (add s a))
    (hgrow : ∀ s a, Bounded (add s a) → Bounded s) {s t : σ} (hs : Inv s) (hbound : Bounded s) :
    as.foldlM step s = some t ↔ (∀ a ∈ as, Fine a) ∧ t = as.foldl add s ∧ Bounded t := by
  induction as generalizing s with
  | nil =>
    constructor
    · rintro ⟨⟩
      exact ⟨by simp, rfl, hbound⟩
    · rintro ⟨-, rfl, -⟩
      rfl
  | cons a as ih =>
    obtain ⟨hstep₁, hstep⟩ := List.forall_mem_cons.mp hstep
    obtain ⟨hinv₁, hinv⟩ := List.forall_mem_cons.mp hinv
    rw [List.foldlM_cons, Option.bind_eq_bind, Option.bind_eq_some_iff, List.forall_mem_cons,
      List.foldl_cons]
    constructor
    · rintro ⟨s₁, ha, has⟩
      obtain ⟨hfine, rfl, hbound₁⟩ := (hstep₁ s s₁ hs hbound).mp ha
      obtain ⟨hrest, ht, hbound'⟩ := (ih hstep hinv (hinv₁ s hs) hbound₁).mp has
      exact ⟨⟨hfine, hrest⟩, ht, hbound'⟩
    · rintro ⟨⟨hfine, hrest⟩, ht, hbound'⟩
      have hbound₁ : Bounded (add s a) := bounded_of_foldl hgrow as (ht ▸ hbound')
      exact ⟨add s a, (hstep₁ s _ hs hbound).mpr ⟨hfine, rfl, hbound₁⟩,
        (ih hstep hinv (hinv₁ s hs) hbound₁).mpr ⟨hrest, ht, hbound'⟩⟩

end Checked

/-- The price of a key is added once.  The total is the sum over the set of the keys that were met,
whatever their order. -/
theorem ite_add_eq_sum {κ : Type} [DecidableEq κ] {seen : Finset κ} {price : κ → ℕ} {total : ℕ}
    (h : total = ∑ key ∈ seen, price key) (key : κ) :
    (if key ∈ seen then total else total + price key) = ∑ key ∈ insert key seen, price key := by
  split
  · rename_i hmem
    rw [Finset.insert_eq_of_mem hmem, h]
  · rename_i hmem
    rw [Finset.sum_insert hmem, h, Nat.add_comm]

end Lib
end ThinWorkspace
