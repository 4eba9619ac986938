/-
# Chains of states

A run seen from outside is the list of the states it went through.  `unbroken` is
the rule for a property that is lost for good: where it holds at both ends of a
chain, it holds in between.  Nothing is asked of the steps but that each keeps the property or
loses it for good.
-/

import Mathlib.Data.List.Chain

namespace ThinWorkspace
namespace Lib
namespace Chain

variable {σ : Type} {step : σ → σ → Prop} {P Q : σ → Prop} {s : σ} {states : List σ}

/-- What a step keeps holds along the chain: at each of its states, from the first on. -/
theorem forall_mem (keep : ∀ s s', step s s' → P s → P s') (h : (s :: states).IsChain step)
    (hs : P s) : ∀ x ∈ s :: states, P x := by
  induction states generalizing s with
  | nil => simpa using hs
  | cons s' states ih =>
    rw [List.isChain_cons_cons] at h
    exact List.forall_mem_cons.mpr ⟨hs, ih h.2 (keep s s' h.1 hs)⟩

/-- **A property that is lost for good.**  A step keeps `P` or leads to `Q`, a step
keeps `Q`, and no state has both; then `P` at both ends of a chain is `P` throughout. -/
theorem unbroken (leave : ∀ s s', step s s' → P s → P s' ∨ Q s')
    (stay : ∀ s s', step s s' → Q s → Q s') (apart : ∀ s, Q s → ¬P s)
    (h : (s :: states).IsChain step) (hs : P s) {last : σ}
    (hlast : (s :: states).getLast? = some last) (hend : P last) : ∀ x ∈ s :: states, P x := by
  induction states generalizing s with
  | nil => simpa using hs
  | cons s' states ih =>
    rw [List.isChain_cons_cons] at h
    rw [List.getLast?_cons_cons] at hlast
    refine List.forall_mem_cons.mpr ⟨hs, ?_⟩
    rcases leave s s' h.1 hs with hP | hQ
    · exact ih h.2 hP hlast
    · have hover := forall_mem stay h.2 hQ last (List.mem_of_getLast? hlast)
      exact absurd hend (apart last hover)

end Chain
end Lib
end ThinWorkspace
