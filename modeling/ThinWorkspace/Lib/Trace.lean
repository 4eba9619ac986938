/-
# Runs against an arbitrary world

Where every operation may have every result, a run is the list of its exchanges, one
for each operation with the result it had.  `Traces x t outcome` says that the program
`x` has the run `t`, complete, with that outcome; `traces_bind` and the rules beside it
take a run apart along the program.  `Only.traces` is the frame rule.

`Each P t` asks `P` of every exchange of a run and of what follows it.
-/

import ThinWorkspace.Lib.Program

namespace ThinWorkspace
namespace Lib

/-- An operation with the result it had: a trace of a run is a list of these. -/
structure Exchange (Op : Type) (Res : Op → Type) where
  op : Op
  result : Res op

namespace Program

variable {Op : Type} {Res : Op → Type} {ε ε' α β : Type}

/-- The program can make these exchanges, one after the other, and then ends.  Nothing is asked of
the results, so a statement about all traces is one about every behaviour of the world. -/
def Traces : Program Op Res ε α → List (Exchange Op Res) → Except ε α → Prop
  | ret a, t, outcome => t = [] ∧ outcome = .ok a
  | fail e, t, outcome => t = [] ∧ outcome = .error e
  | call op next, t, outcome =>
    ∃ (r : Res op) (rest : List (Exchange Op Res)),
      t = ⟨op, r⟩ :: rest ∧ Traces (next r) rest outcome

variable {x : Program Op Res ε α} {t : List (Exchange Op Res)}

/-- A value takes no exchange: its only run is the empty one. -/
@[simp] theorem traces_pure {a : α} {outcome : Except ε α} :
    Traces (pure a : Program Op Res ε α) t outcome ↔ t = [] ∧ outcome = .ok a := Iff.rfl

/-- A run of two parts is a run of the first and, where it returned, one of the second. -/
theorem traces_bind {f : α → Program Op Res ε β} {outcome : Except ε β} :
    Traces (x >>= f) t outcome ↔
      (∃ a t₁ t₂, t = t₁ ++ t₂ ∧ Traces x t₁ (.ok a) ∧ Traces (f a) t₂ outcome) ∨
        ∃ e, outcome = .error e ∧ Traces x t (.error e) := by
  change Traces (x.bind f) t outcome ↔ _
  induction x generalizing t with
  | ret a =>
    constructor
    · exact fun h => .inl ⟨a, [], t, rfl, ⟨rfl, rfl⟩, h⟩
    · rintro (⟨_, _, _, rfl, ⟨rfl, h⟩, hf⟩ | ⟨_, _, _, h⟩)
      · cases h
        exact hf
      · cases h
  | fail e =>
    constructor
    · rintro ⟨rfl, rfl⟩
      exact .inr ⟨e, rfl, rfl, rfl⟩
    · rintro (⟨_, _, _, _, ⟨_, h⟩, _⟩ | ⟨_, rfl, rfl, h⟩)
      · cases h
      · cases h
        exact ⟨rfl, rfl⟩
  | call op next ih =>
    constructor
    · rintro ⟨r, rest, rfl, h⟩
      rcases (ih r).mp h with ⟨a, t₁, t₂, rfl, hx, hf⟩ | ⟨e, he, hx⟩
      · exact .inl ⟨a, ⟨op, r⟩ :: t₁, t₂, rfl, ⟨r, t₁, rfl, hx⟩, hf⟩
      · exact .inr ⟨e, he, r, rest, rfl, hx⟩
    · rintro (⟨a, _, t₂, rfl, ⟨r, t₁, rfl, hx⟩, hf⟩ | ⟨e, he, r, rest, rfl, hx⟩)
      · exact ⟨r, t₁ ++ t₂, rfl, (ih r).mpr (.inl ⟨a, t₁, t₂, rfl, hx, hf⟩)⟩
      · exact ⟨r, rest, rfl, (ih r).mpr (.inr ⟨e, he, hx⟩)⟩

/-- A run of two parts that returned is a run of the first part, and behind it one of the second
from its value. -/
theorem traces_bind_ok {f : α → Program Op Res ε β} {b : β} :
    Traces (x >>= f) t (.ok b) ↔
      ∃ a t₁ t₂, t = t₁ ++ t₂ ∧ Traces x t₁ (.ok a) ∧ Traces (f a) t₂ (.ok b) := by
  rw [traces_bind]
  refine or_iff_left ?_
  rintro ⟨_, he, _⟩
  cases he

/-- One operation is one exchange, with any result; the operation itself never fails. -/
@[simp] theorem traces_perform {op : Op} {outcome : Except ε (Res op)} :
    Traces (perform op : Program Op Res ε (Res op)) t outcome ↔
      ∃ r, t = [⟨op, r⟩] ∧ outcome = .ok r := by
  constructor
  · rintro ⟨r, _, rfl, rfl, rfl⟩
    exact ⟨r, rfl, rfl⟩
  · rintro ⟨r, rfl, rfl⟩
    exact ⟨r, [], rfl, rfl, rfl⟩

/-- The rule for one operation and what follows it: the first exchange is this operation, and the
rest a run from its result. -/
theorem traces_perform_bind {op : Op} {f : Res op → Program Op Res ε β} {outcome : Except ε β} :
    Traces (perform op >>= f) t outcome ↔
      ∃ r rest, t = ⟨op, r⟩ :: rest ∧ Traces (f r) rest outcome := Iff.rfl

/-- An attempt makes the exchanges of the program, and its outcome is a value. -/
@[simp] theorem traces_attempt {outcome : Except ε' (Except ε α)} :
    Traces (x.attempt : Program Op Res ε' (Except ε α)) t outcome ↔
      ∃ result, outcome = .ok result ∧ Traces x t result := by
  induction x generalizing t with
  | ret a =>
    constructor
    · rintro ⟨rfl, rfl⟩
      exact ⟨_, rfl, rfl, rfl⟩
    · rintro ⟨_, rfl, rfl, rfl⟩
      exact ⟨rfl, rfl⟩
  | fail e =>
    constructor
    · rintro ⟨rfl, rfl⟩
      exact ⟨_, rfl, rfl, rfl⟩
    · rintro ⟨_, rfl, rfl, rfl⟩
      exact ⟨rfl, rfl⟩
  | call op next ih =>
    constructor
    · rintro ⟨r, rest, rfl, h⟩
      obtain ⟨result, rfl, hx⟩ := (ih r).mp h
      exact ⟨result, rfl, r, rest, rfl, hx⟩
    · rintro ⟨result, rfl, r, rest, rfl, hx⟩
      exact ⟨r, rest, rfl, (ih r).mpr ⟨result, rfl, hx⟩⟩

/-- A computed value takes no exchange: its only run is the empty one, with the value or its
failure. -/
@[simp] theorem traces_ofExcept {f : ε' → ε} {r : Except ε' α} {outcome : Except ε α} :
    Traces (ofExcept f r : Program Op Res ε α) t outcome ↔ t = [] ∧ outcome = r.mapError f := by
  cases r <;> exact Iff.rfl

/-- A computed value that is returned was a success, and nothing was exchanged. -/
theorem traces_ofExcept_ok {f : ε' → ε} {r : Except ε' α} {a : α} :
    Traces (ofExcept f r : Program Op Res ε α) t (.ok a) ↔ t = [] ∧ r = .ok a := by
  rw [traces_ofExcept]
  cases r with
  | ok b =>
    have hmap : (Except.ok b : Except ε' α).mapError f = .ok b := rfl
    rw [hmap, Except.ok.injEq, Except.ok.injEq, @eq_comm α a b]
  | error e =>
    have hmap : (Except.error e : Except ε' α).mapError f = .error (f e) := rfl
    rw [hmap]
    simp

/-- Other terms for a failure take no exchange: the runs are the same up to the terms. -/
@[simp] theorem traces_mapError {f : ε → ε'} {outcome : Except ε' α} :
    Traces (x.mapError f) t outcome ↔
      ∃ result, outcome = result.mapError f ∧ Traces x t result := by
  change Traces (x.attempt >>= ofExcept f) t outcome ↔ _
  rw [traces_bind]
  constructor
  · rintro (⟨_, t₁, t₂, rfl, hx, hf⟩ | ⟨_, _, hx⟩)
    · obtain ⟨result, h, hx⟩ := traces_attempt.mp hx
      obtain ⟨rfl, rfl⟩ := traces_ofExcept.mp hf
      cases h
      exact ⟨_, rfl, (List.append_nil t₁).symm ▸ hx⟩
    · obtain ⟨_, h, _⟩ := traces_attempt.mp hx
      cases h
  · rintro ⟨result, rfl, hx⟩
    exact .inl ⟨result, t, [], (List.append_nil t).symm, traces_attempt.mpr ⟨_, rfl, hx⟩,
      traces_ofExcept.mpr ⟨rfl, rfl⟩⟩

/-- A run that returns does not meet the handler of failures. -/
theorem traces_mapError_ok {f : ε → ε'} {a : α} :
    Traces (x.mapError f) t (.ok a) ↔ Traces x t (.ok a) := by
  rw [traces_mapError]
  constructor
  · rintro ⟨result, he, hx⟩
    cases result with
    | ok b =>
      cases he
      exact hx
    | error e => cases he
  · exact fun h => ⟨.ok a, rfl, h⟩

/-- A fallible result that is returned was a success, in a run of the part itself. -/
@[simp] theorem traces_orFail {f : ε' → ε} {y : Program Op Res ε (Except ε' α)} {a : α} :
    Traces (y.orFail f) t (.ok a) ↔ Traces y t (.ok (.ok a)) := by
  change Traces (y >>= ofExcept f) t (.ok a) ↔ _
  rw [traces_bind]
  constructor
  · rintro (⟨r, t₁, t₂, rfl, hy, hf⟩ | ⟨_, h, _⟩)
    · obtain ⟨rfl, hr⟩ := traces_ofExcept.mp hf
      cases r with
      | ok b =>
        cases hr
        rwa [List.append_nil]
      | error e => cases hr
    · cases h
  · intro hy
    exact .inl ⟨.ok a, t, [], (List.append_nil t).symm, hy, traces_ofExcept.mpr ⟨rfl, rfl⟩⟩

/-- **Frame rule.**  A run of a part holds only operations the part issues. -/
theorem Only.traces {P : Op → Prop} (hx : Only P x) {outcome : Except ε α}
    (h : Traces x t outcome) : ∀ exchange ∈ t, P exchange.op := by
  induction x generalizing t with
  | ret a =>
    obtain ⟨rfl, -⟩ := h
    simp
  | fail e =>
    obtain ⟨rfl, -⟩ := h
    simp
  | call op next ih =>
    obtain ⟨r, rest, rfl, h⟩ := h
    intro exchange hmem
    rcases List.mem_cons.mp hmem with rfl | hmem
    · exact hx.1
    · exact ih r (hx.2 r) h exchange hmem

/-- A run determines its outcome: the results decide every branch. -/
theorem Traces.unique {outcome outcome' : Except ε α} (h : Traces x t outcome)
    (h' : Traces x t outcome') : outcome = outcome' := by
  induction x generalizing t with
  | ret a => exact h.2.trans h'.2.symm
  | fail e => exact h.2.trans h'.2.symm
  | call op next ih =>
    obtain ⟨r, rest, rfl, h⟩ := h
    obtain ⟨r', rest', he, h'⟩ := h'
    cases he
    exact ih r h h'

/-- A loop issues what its rounds issue, by induction on the list it runs over. -/
theorem Only.foldlM {P : Op → Prop} {f : β → α → Program Op Res ε β} {b : β}
    (h : ∀ b a, Only P (f b a)) (as : List α) : Only P (as.foldlM f b) := by
  induction as generalizing b with
  | nil => exact only_pure
  | cons a as ih =>
    rw [List.foldlM_cons]
    exact (h b a).bind fun b' => ih

/-- A loop that collects issues what its rounds issue, by induction on the list it runs over. -/
theorem Only.mapM {P : Op → Prop} {f : α → Program Op Res ε β} (h : ∀ a, Only P (f a))
    (as : List α) : Only P (as.mapM f) := by
  have hloop : ∀ bs, Only P (List.mapM.loop f as bs) := by
    induction as with
    | nil => exact fun bs => only_pure
    | cons a as ih => exact fun bs => (h a).bind fun b => ih (b :: bs)
  exact hloop []

/-- Where every operation has its answer there is a run with these answers. -/
theorem exists_traces_evaluate (answer : (op : Op) → Res op) (x : Program Op Res ε α) :
    ∃ t, Traces x t (evaluate answer x) ∧ ∀ exchange ∈ t, exchange.result = answer exchange.op := by
  induction x with
  | ret a => exact ⟨[], ⟨rfl, rfl⟩, by simp⟩
  | fail e => exact ⟨[], ⟨rfl, rfl⟩, by simp⟩
  | call op next ih =>
    obtain ⟨t, htraces, hanswers⟩ := ih (answer op)
    exact ⟨⟨op, answer op⟩ :: t, ⟨answer op, t, rfl, htraces⟩,
      List.forall_mem_cons.mpr ⟨rfl, hanswers⟩⟩

/-- The outcome of a run where the answers are known. -/
theorem Traces.eq_evaluate {answer : (op : Op) → Res op} {outcome : Except ε α}
    (h : Traces x t outcome) (hanswers : ∀ exchange ∈ t, exchange.result = answer exchange.op) :
    outcome = evaluate answer x := by
  induction x generalizing t with
  | ret a => exact h.2
  | fail e => exact h.2
  | call op next ih =>
    obtain ⟨r, rest, rfl, h⟩ := h
    obtain ⟨hr, hrest⟩ := List.forall_mem_cons.mp hanswers
    obtain rfl : r = answer op := hr
    exact ih _ h hrest

/-- The run of a program in a world that answers by its state, where it has an answer to
every operation. -/
def answered {σ : Type} (respond : σ → (op : Op) → Option (Res op × σ)) :
    Program Op Res ε α → σ → Option (List (Exchange Op Res) × Except ε α)
  | ret a, _ => some ([], .ok a)
  | fail e, _ => some ([], .error e)
  | call op next, s =>
    (respond s op).bind fun answer =>
      (answered respond (next answer.1) answer.2).map fun run => (⟨op, answer.1⟩ :: run.1, run.2)

/-- It is a run of the program, and every result in it is such an answer. -/
theorem traces_answered {σ : Type} {respond : σ → (op : Op) → Option (Res op × σ)} {s : σ}
    {outcome : Except ε α} (h : answered respond x s = some (t, outcome)) :
    Traces x t outcome ∧ ∀ exchange ∈ t, ∃ s s',
      respond s exchange.op = some (exchange.result, s') := by
  induction x generalizing s t with
  | ret a =>
    cases h
    exact ⟨⟨rfl, rfl⟩, by simp⟩
  | fail e =>
    cases h
    exact ⟨⟨rfl, rfl⟩, by simp⟩
  | call op next ih =>
    obtain ⟨⟨r, s'⟩, hanswer, h⟩ := Option.bind_eq_some_iff.mp h
    obtain ⟨⟨rest, last⟩, hrun, he⟩ := Option.map_eq_some_iff.mp h
    cases he
    obtain ⟨htraces, hanswers⟩ := ih r hrun
    exact ⟨⟨r, rest, rfl, htraces⟩, List.forall_mem_cons.mpr ⟨⟨s, s', hanswer⟩, hanswers⟩⟩

/-! ### What a program returns

`Yields` of a program speaks of every run against every world: nothing is assumed of the
results.  It is the weakest postcondition in use, and enough for what a program establishes
by its own checks. -/

/-- Whatever the program returns satisfies `P`, whatever its operations result in. -/
def Yields (P : α → Prop) : Program Op Res ε α → Prop
  | ret a => P a
  | fail _ => True
  | call _ next => ∀ r, Yields P (next r)

/-- A value that satisfies it: there is no other run. -/
theorem yields_pure {P : α → Prop} {a : α} (h : P a) :
    Yields P (pure a : Program Op Res ε α) := h

/-- What is satisfied may be weakened, value by value. -/
theorem Yields.mono {P Q : α → Prop} (hx : Yields P x) (h : ∀ a, P a → Q a) : Yields Q x := by
  induction x with
  | ret a => exact h a hx
  | fail e => trivial
  | call op next ih => exact fun r => ih r (hx r)

/-- What every second part yields the sequence yields, whatever the first part returns. -/
theorem yields_bind {P : β → Prop} {f : α → Program Op Res ε β} (hf : ∀ a, Yields P (f a)) :
    Yields P (x >>= f) := by
  change Yields P (x.bind f)
  induction x with
  | ret a => exact hf a
  | fail e => trivial
  | call op next ih => exact fun r => ih r

/-- In particular what a run returns satisfies it, which is how the rule is used. -/
theorem Yields.traces {P : α → Prop} (hx : Yields P x) {a : α} (h : Traces x t (.ok a)) : P a := by
  induction x generalizing t with
  | ret b =>
    cases h.2
    exact hx
  | fail e => cases h.2
  | call op next ih =>
    obtain ⟨r, rest, rfl, h⟩ := h
    exact ih r (hx r) h

/-- What the first part returns may be used of the second. -/
theorem Yields.bind {P : α → Prop} {Q : β → Prop} {f : α → Program Op Res ε β} (hx : Yields P x)
    (hf : ∀ a, P a → Yields Q (f a)) : Yields Q (x >>= f) := by
  change Yields Q (x.bind f)
  induction x with
  | ret a => exact hf a hx
  | fail e => trivial
  | call op next ih => exact fun r => ih r (hx r)

/-- Two sequences agree where their second parts agree on what the first can return. -/
theorem Yields.bind_congr {P : α → Prop} {f g : α → Program Op Res ε β} (hx : Yields P x)
    (h : ∀ a, P a → f a = g a) : (x >>= f) = (x >>= g) := by
  change x.bind f = x.bind g
  induction x with
  | ret a => exact h a hx
  | fail e => rfl
  | call op next ih =>
    have hnext : ∀ r, (next r).bind f = (next r).bind g := fun r => ih r (hx r)
    simp only [Program.bind, hnext]

/-! ### Programs that never fail

A program that reports a failure as a value never fails itself.  `NeverFails` says so of the
program; a caller then has a value in every run and needs no case for a failure. -/

/-- No run of the program ends with a failure. -/
def NeverFails : Program Op Res ε α → Prop
  | ret _ => True
  | fail _ => False
  | call _ next => ∀ r, NeverFails (next r)

/-- One operation does not fail: its failure is a result. -/
theorem neverFails_perform {op : Op} : NeverFails (perform op : Program Op Res ε (Res op)) :=
  fun _ => trivial

/-- Two parts that never fail never fail together. -/
theorem NeverFails.bind {f : α → Program Op Res ε β} (hx : NeverFails x)
    (hf : ∀ a, NeverFails (f a)) : NeverFails (x >>= f) := by
  change NeverFails (x.bind f)
  induction x with
  | ret a => exact hf a
  | fail e => exact hx.elim
  | call op next ih => exact fun r => ih r (hx r)

/-- A failure that has become a value is none, so an attempt returns in every run. -/
theorem neverFails_attempt {x : Program Op Res ε' α} :
    NeverFails (x.attempt : Program Op Res ε (Except ε' α)) := by
  induction x with
  | ret a => trivial
  | fail e => trivial
  | call op next ih => exact fun r => ih r

/-- So every run returns a value, whatever its exchanges are. -/
theorem NeverFails.traces (hx : NeverFails x) {outcome : Except ε α} (h : Traces x t outcome) :
    ∃ a, outcome = .ok a := by
  induction x generalizing t with
  | ret a => exact ⟨a, h.2⟩
  | fail e => exact hx.elim
  | call op next ih =>
    obtain ⟨r, rest, rfl, h⟩ := h
    exact ih r (hx r) h

/-! ### Parts of a run

`Ran x t outcome` places a run of a part somewhere within the run of the whole.  It lets a
statement about a run name the calls of a part, for instance the check that was made for one
object, without fixing what comes before and after. -/

/-- The program ran in these exchanges, from its beginning to its end, with this outcome.  The
exchanges before and behind it are those of other parts. -/
def Ran (x : Program Op Res ε α) (outcome : Except ε α) (t : List (Exchange Op Res)) : Prop :=
  ∃ part, part <:+: t ∧ Traces x part outcome

/-- A run is a part of itself, so what holds of every part that was run holds of the whole. -/
theorem Traces.ran {outcome : Except ε α} (h : Traces x t outcome) : Ran x outcome t :=
  ⟨t, List.infix_rfl, h⟩

/-- What ran in a part of the exchanges ran in them. -/
theorem Ran.mono {outcome : Except ε α} {t' : List (Exchange Op Res)} (h : Ran x outcome t)
    (hsub : t <:+: t') : Ran x outcome t' := by
  obtain ⟨part, hpart, hx⟩ := h
  exact ⟨part, hpart.trans hsub, hx⟩

/-- In particular in the first of two parts: what ran there ran in the sequence. -/
theorem Ran.left {outcome : Except ε α} {t' : List (Exchange Op Res)} (h : Ran x outcome t) :
    Ran x outcome (t ++ t') := h.mono (List.prefix_append t t').isInfix

/-- Or in the second: what ran there ran in the sequence. -/
theorem Ran.right {outcome : Except ε α} {t' : List (Exchange Op Res)} (h : Ran x outcome t') :
    Ran x outcome (t ++ t') := h.mono (List.suffix_append t t').isInfix

end Program

/-- An element of two lists in a row is in the first or in the second. -/
theorem split_append {γ : Type} {t₁ t₂ before after : List γ} {a : γ}
    (h : t₁ ++ t₂ = before ++ a :: after) :
    (∃ rest, t₁ = before ++ a :: rest) ∨ ∃ rest, before = t₁ ++ rest ∧ t₂ = rest ++ a :: after := by
  rcases List.append_eq_append_iff.mp h with ⟨rest, hbefore, ht₂⟩ | ⟨rest, ht₁, hafter⟩
  · exact .inr ⟨rest, hbefore, ht₂⟩
  · cases rest with
    | nil =>
      refine .inr ⟨[], by simpa using ht₁.symm, ?_⟩
      simpa using hafter.symm
    | cons b rest =>
      obtain ⟨rfl, -⟩ := List.cons.inj hafter
      exact .inl ⟨rest, ht₁⟩

/-! ### Exchanges and what follows them

An exchange is related to what follows it in the run: a request to a later one that depends
on it.  `Each` says this of every exchange with the rest of the list, and behaves well on
lists that are put together. -/

variable {α : Type} {P : α → List α → Prop} {t : List α}

/-- `P` of every element and the list after it. -/
def Each (P : α → List α → Prop) : List α → Prop
  | [] => True
  | a :: rest => P a rest ∧ Each P rest

/-- In particular of an element that stands somewhere in the list. -/
theorem Each.of_suffix (h : Each P t) {a : α} {rest : List α} (hs : a :: rest <:+ t) :
    P a rest := by
  induction t with
  | nil => exact absurd (List.suffix_nil.mp hs) (List.cons_ne_nil _ _)
  | cons b t ih =>
    rcases List.suffix_cons_iff.mp hs with he | hs
    · obtain ⟨rfl, rfl⟩ := List.cons.inj he
      exact h.1
    · exact ih h.2 hs

/-- To show it, show it wherever an element stands, with what follows it there. -/
theorem each_of_suffix (h : ∀ a rest, a :: rest <:+ t → P a rest) : Each P t := by
  induction t with
  | nil => trivial
  | cons b t ih =>
    refine ⟨h b t List.suffix_rfl, ih fun a rest hs => h a rest ?_⟩
    exact hs.trans (List.suffix_cons b t)

end Lib
end ThinWorkspace
