/-
# Fallible values

A computation in `Except` is taken apart one step at a time: `bind_ok` for a
step, `refuseIf_bind_ok` for an early return, `mem_mapM_ok` for a loop that
fails with its first failing element.  The rules name the intermediate values, so that a
proof about a chain of checks follows the chain.
-/

namespace ThinWorkspace
namespace Lib
namespace Fallible

variable {ε ε' α β : Type}

/-- An early return of `e` when `p` holds: the `if p { return Err(e) }` of a source. -/
def refuseIf (p : Prop) [Decidable p] (e : ε) : Except ε Unit :=
  if p then .error e else .ok ()

/-- A sequence that succeeds, taken apart. -/
theorem bind_ok {x : Except ε α} {f : α → Except ε β} {b : β} (h : (x >>= f) = .ok b) :
    ∃ a, x = .ok a ∧ f a = .ok b := by
  cases x with
  | ok a => exact ⟨a, rfl, h⟩
  | error e => cases h

/-- An early return that was passed did not apply. -/
theorem refuseIf_ok {p : Prop} [Decidable p] {e : ε} {u : Unit} (h : refuseIf p e = .ok u) :
    ¬p := by
  unfold refuseIf at h
  split at h
  · cases h
  · assumption

/-- A sequence that begins with an early return, taken apart. -/
theorem refuseIf_bind_ok {p : Prop} [Decidable p] {e : ε} {f : Unit → Except ε β} {b : β}
    (h : (refuseIf p e >>= f) = .ok b) : ¬p ∧ f () = .ok b := by
  obtain ⟨_, hp, h⟩ := bind_ok h
  exact ⟨refuseIf_ok hp, h⟩

/-- A sequence succeeds exactly where both of its parts do. -/
theorem bind_eq_ok {x : Except ε α} {f : α → Except ε β} {b : β} :
    (x >>= f) = .ok b ↔ ∃ a, x = .ok a ∧ f a = .ok b :=
  ⟨bind_ok, fun ⟨_, hx, hf⟩ => hx ▸ hf⟩

/-- An early return is passed exactly where it does not apply. -/
theorem refuseIf_eq_ok {p : Prop} [Decidable p] {e : ε} {u : Unit} :
    refuseIf p e = .ok u ↔ ¬p := by
  refine ⟨refuseIf_ok, fun h => ?_⟩
  rw [refuseIf, if_neg h]

/-- Other terms for a failure change no success. -/
theorem mapError_ok {f : ε → ε'} {x : Except ε α} {a : α} (h : x.mapError f = .ok a) :
    x = .ok a := by
  cases x with
  | ok b => cases h; rfl
  | error e => cases h

/-- A mapped success is a success that was mapped. -/
theorem map_ok {f : α → β} {x : Except ε α} {b : β} (h : x.map f = .ok b) :
    ∃ a, x = .ok a ∧ f a = b := by
  cases x with
  | ok a =>
    cases h
    exact ⟨a, rfl, rfl⟩
  | error e => cases h

/-- A loop that fails with its first failing element succeeds exactly where every element does. -/
theorem forM_eq_ok {f : α → Except ε Unit} {as : List α} :
    as.forM f = .ok () ↔ ∀ a ∈ as, f a = .ok () := by
  induction as with
  | nil => simp [pure, Except.pure]
  | cons a as ih =>
    rw [List.forM_eq_forM, List.forM_cons, bind_eq_ok, List.forall_mem_cons]
    constructor
    · rintro ⟨_, ha, has⟩
      exact ⟨ha, ih.mp has⟩
    · rintro ⟨ha, has⟩
      exact ⟨_, ha, ih.mpr has⟩

/-- The elements and the values of a loop that reached its end. -/
theorem mem_mapM_ok {f : α → Except ε β} {as : List α} {bs : List β} (h : as.mapM f = .ok bs) :
    (∀ a ∈ as, ∃ b ∈ bs, f a = .ok b) ∧ ∀ b ∈ bs, ∃ a ∈ as, f a = .ok b := by
  induction as generalizing bs with
  | nil =>
    cases h
    simp
  | cons a as ih =>
    rw [List.mapM_cons] at h
    obtain ⟨b, hb, h⟩ := bind_ok h
    obtain ⟨bs', hbs, h⟩ := bind_ok h
    cases h
    obtain ⟨hto, hof⟩ := ih hbs
    constructor
    · intro x hx
      rcases List.mem_cons.mp hx with rfl | hx
      · exact ⟨b, List.mem_cons_self, hb⟩
      · obtain ⟨y, hy, he⟩ := hto x hx
        exact ⟨y, List.mem_cons_of_mem _ hy, he⟩
    · intro y hy
      rcases List.mem_cons.mp hy with rfl | hy
      · exact ⟨a, List.mem_cons_self, hb⟩
      · obtain ⟨x, hx, he⟩ := hof y hy
        exact ⟨x, List.mem_cons_of_mem _ hx, he⟩

end Fallible
end Lib
end ThinWorkspace
