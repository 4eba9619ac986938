/-
# Programs that stop at the first failure

In a world that stays as it is an operation has one answer, or it fails.  A `Strict`
program fails with the first operation that does, so that a run that returned had the
answer of every operation (`Strict.traces`): what it returned is `evaluate`, and a failure
in the middle is never made up for.
-/

import ThinWorkspace.Lib.Trace

namespace ThinWorkspace
namespace Lib

/-- A world that stays as it is: the answer of each operation, the results that it may
have, and those of them that are no failure. -/
structure StillWorld (Op : Type) (Res : Op → Type) where
  answer : (op : Op) → Res op
  Truthful : (op : Op) → Res op → Prop
  Passes : (op : Op) → Res op → Prop

namespace Program

variable {Op : Type} {Res : Op → Type} {ε ε' α β : Type} (world : StillWorld Op Res)

/-- An operation that passes is as good as its answer, and the program fails with one that does not
pass.  It is required along the run with the answers alone, as every other run has failed before.
-/
def Strict : Program Op Res ε α → Prop
  | ret _ => True
  | fail _ => True
  | call op next =>
    (∀ r, world.Truthful op r →
      (world.Passes op r → next r = next (world.answer op)) ∧
      (¬world.Passes op r → ∃ e, next r = fail e)) ∧
    Strict (next (world.answer op))

variable {world} {x : Program Op Res ε α}

/-- A value takes no operation. -/
theorem strict_pure {a : α} : Strict world (pure a : Program Op Res ε α) := trivial

/-- A failure takes no operation. -/
theorem strict_throw {e : ε} : Strict world (throw e : Program Op Res ε α) := trivial

/-- A computed value takes no operation. -/
theorem strict_ofExcept {f : ε' → ε} {r : Except ε' α} :
    Strict world (ofExcept f r : Program Op Res ε α) := by
  cases r <;> trivial

/-- The rule for one operation with what is made of its result. -/
theorem strict_perform_bind {op : Op} {f : Res op → Program Op Res ε β}
    (hpass : ∀ r, world.Truthful op r → world.Passes op r → f r = f (world.answer op))
    (hfail : ∀ r, world.Truthful op r → ¬world.Passes op r → ∃ e, f r = fail e)
    (hrest : Strict world (f (world.answer op))) : Strict world (perform op >>= f) :=
  ⟨fun r htrue => ⟨hpass r htrue, hfail r htrue⟩, hrest⟩

/-- The rule for a sequence. -/
theorem Strict.bind {f : α → Program Op Res ε β} (hx : Strict world x)
    (hf : ∀ a, Strict world (f a)) : Strict world (x >>= f) := by
  change Strict world (x.bind f)
  induction x with
  | ret a => exact hf a
  | fail e => trivial
  | call op next ih =>
    refine ⟨fun r htrue => ?_, ih _ hx.2⟩
    obtain ⟨hpass, hfail⟩ := hx.1 r htrue
    constructor
    · intro hr
      change (next r).bind f = (next (world.answer op)).bind f
      rw [hpass hr]
    · intro hr
      obtain ⟨e, he⟩ := hfail hr
      exact ⟨e, congrArg (Program.bind · f) he⟩

/-- The rule for a loop, by induction on the list. -/
theorem Strict.foldlM {f : β → α → Program Op Res ε β} (h : ∀ b a, Strict world (f b a))
    (as : List α) (b : β) : Strict world (as.foldlM f b) := by
  induction as generalizing b with
  | nil => exact strict_pure
  | cons a as ih =>
    rw [List.foldlM_cons]
    exact (h b a).bind ih

/-- Other terms for a failure are a failure still. -/
theorem Strict.mapError {f : ε → ε'} (hx : Strict world x) : Strict world (x.mapError f) := by
  induction x with
  | ret a => exact strict_pure
  | fail e => exact strict_throw
  | call op next ih =>
    refine ⟨fun r htrue => ?_, ih _ hx.2⟩
    obtain ⟨hpass, hfail⟩ := hx.1 r htrue
    constructor
    · intro hr
      exact congrArg (Program.mapError f) (hpass hr)
    · intro hr
      obtain ⟨e, he⟩ := hfail hr
      exact ⟨f e, congrArg (Program.mapError f) he⟩

/-- A run fails, or it is the run with the answers and every operation of it has passed; by
induction on the program. -/
theorem Strict.outcome_of_traces (hx : Strict world x) {t : List (Exchange Op Res)}
    {outcome : Except ε α} (h : Traces x t outcome)
    (htrue : ∀ exchange ∈ t, world.Truthful exchange.op exchange.result) :
    (∃ e, outcome = .error e) ∨
      outcome = evaluate world.answer x ∧
        ∀ exchange ∈ t, world.Passes exchange.op exchange.result := by
  induction x generalizing t with
  | ret a =>
    obtain ⟨rfl, rfl⟩ := h
    exact .inr ⟨rfl, by simp⟩
  | fail e => exact .inl ⟨e, h.2⟩
  | call op next ih =>
    obtain ⟨r, rest, rfl, h⟩ := h
    obtain ⟨hr, hrest⟩ := List.forall_mem_cons.mp htrue
    obtain ⟨hpass, hfail⟩ := hx.1 r hr
    by_cases hpasses : world.Passes op r
    · rw [hpass hpasses] at h
      rcases ih _ hx.2 h hrest with herror | ⟨houtcome, hall⟩
      · exact .inl herror
      · exact .inr ⟨houtcome, List.forall_mem_cons.mpr ⟨hpasses, hall⟩⟩
    · obtain ⟨e, he⟩ := hfail hpasses
      rw [he] at h
      exact .inl ⟨e, h.2⟩

/-- **A strict program that returned met no failure**, and returned what the answers give. -/
theorem Strict.traces (hx : Strict world x) {t : List (Exchange Op Res)} {a : α}
    (h : Traces x t (.ok a))
    (htrue : ∀ exchange ∈ t, world.Truthful exchange.op exchange.result) :
    evaluate world.answer x = .ok a ∧
      ∀ exchange ∈ t, world.Passes exchange.op exchange.result := by
  rcases hx.outcome_of_traces h htrue with ⟨e, he⟩ | ⟨houtcome, hall⟩
  · cases he
  · exact ⟨houtcome.symm, hall⟩

end Program
end Lib
end ThinWorkspace
