/-
# Transcripts

A digest stands for a transcript: the codes of several values, one after another.
Two equal transcripts come from equal values when each code can be read off the
front of a text by itself, whatever follows it: `Delimited S code` says so for the
values in `S`.

Codes of one length are delimited (`delimited_of_length`), and so is a code after
its own length (`Delimited.lengthPrefixed`), a list of delimited codes after its
length (`Delimited.counted`) and a choice between a tag and a tagged code
(`Delimited.optional`).  Codes that end the transcript need no count, as long as
none is empty (`Delimited.flatMap_inj`).
-/

import Mathlib.Data.List.Basic

namespace ThinWorkspace
namespace Lib
namespace Transcript

variable {α β γ : Type} {S : α → Prop} {code : α → List β}

/-- The code of a value in `S` can be told apart from whatever follows it. -/
def Delimited (S : α → Prop) (code : α → List β) : Prop :=
  ∀ ⦃a b : α⦄ ⦃s t : List β⦄, S a → S b → code a ++ s = code b ++ t → a = b ∧ s = t

/-- A code by itself: nothing has to follow it. -/
theorem Delimited.inj (h : Delimited S code) {a b : α} (ha : S a) (hb : S b)
    (heq : code a = code b) : a = b :=
  (h ha hb (congrArg (· ++ []) heq)).1

/-- Codes of one length. -/
theorem delimited_of_length {n : ℕ} (hlength : ∀ a, S a → (code a).length = n)
    (hinj : ∀ a b, S a → S b → code a = code b → a = b) : Delimited S code := by
  intro a b s t ha hb heq
  have hsame : (code a).length = (code b).length := by rw [hlength a ha, hlength b hb]
  obtain ⟨hcode, hrest⟩ := List.append_inj heq hsame
  exact ⟨hinj a b ha hb hcode, hrest⟩

/-- One symbol for each value. -/
theorem delimited_symbol {symbol : α → β} (hinj : ∀ a b, symbol a = symbol b → a = b) :
    Delimited (fun _ => True) (fun a => [symbol a]) := by
  refine delimited_of_length (fun _ _ => rfl) fun a b _ _ heq => hinj a b ?_
  simpa using heq

/-- The code of a value that an injection makes of another. -/
theorem Delimited.comap {T : γ → Prop} {f : γ → α} (h : Delimited S code)
    (hto : ∀ c, T c → S (f c)) (hinj : ∀ c d, T c → T d → f c = f d → c = d) :
    Delimited T (fun c => code (f c)) := by
  intro c d s t hc hd heq
  obtain ⟨hf, hrest⟩ := h (hto c hc) (hto d hd) heq
  exact ⟨hinj c d hc hd hf, hrest⟩

/-- Two codes, one after the other. -/
theorem Delimited.append {T : γ → Prop} {code' : γ → List β} (h : Delimited S code)
    (h' : Delimited T code') :
    Delimited (fun pair : α × γ => S pair.1 ∧ T pair.2)
      (fun pair => code pair.1 ++ code' pair.2) := by
  intro a b s t ha hb heq
  rw [List.append_assoc, List.append_assoc] at heq
  obtain ⟨hfst, heq⟩ := h ha.1 hb.1 heq
  obtain ⟨hsnd, hrest⟩ := h' ha.2 hb.2 heq
  exact ⟨Prod.ext hfst hsnd, hrest⟩

/-! ### Lists of codes

A list needs its length or a common end before its codes can be told apart.  Three codings
are delimited for this reason: a list after its number, a text after its length, and an
optional value after a tag. -/

/-- Two lists of one length. -/
theorem Delimited.flatMap (h : Delimited S code) {as bs : List α} {s t : List β}
    (hlength : as.length = bs.length) (has : ∀ a ∈ as, S a) (hbs : ∀ b ∈ bs, S b)
    (heq : as.flatMap code ++ s = bs.flatMap code ++ t) : as = bs ∧ s = t := by
  induction as generalizing bs with
  | nil =>
    have hnil : bs = [] := List.length_eq_zero_iff.mp hlength.symm
    subst hnil
    exact ⟨rfl, heq⟩
  | cons a as ih =>
    cases bs with
    | nil => cases hlength
    | cons b bs =>
      rw [List.forall_mem_cons] at has hbs
      simp only [List.flatMap_cons, List.append_assoc] at heq
      obtain ⟨hhead, heq⟩ := h has.1 hbs.1 heq
      obtain ⟨htail, hrest⟩ := ih (Nat.succ.inj hlength) has.2 hbs.2 heq
      exact ⟨by rw [hhead, htail], hrest⟩

/-- Two lists that end their transcripts. -/
theorem Delimited.flatMap_inj (h : Delimited S code) (hne : ∀ a, code a ≠ [])
    {as bs : List α} (has : ∀ a ∈ as, S a) (hbs : ∀ b ∈ bs, S b)
    (heq : as.flatMap code = bs.flatMap code) : as = bs := by
  induction as generalizing bs with
  | nil =>
    cases bs with
    | nil => rfl
    | cons b bs => simp [hne b] at heq
  | cons a as ih =>
    cases bs with
    | nil => simp [hne a] at heq
    | cons b bs =>
      rw [List.forall_mem_cons] at has hbs
      rw [List.flatMap_cons, List.flatMap_cons] at heq
      obtain ⟨hhead, heq⟩ := h has.1 hbs.1 heq
      rw [hhead, ih has.2 hbs.2 heq]

variable {count : ℕ → List β} {N : ℕ → Prop}

/-- A list of codes after their number, so that a reader knows where the list ends. -/
def counted (count : ℕ → List β) (code : α → List β) (as : List α) : List β :=
  count as.length ++ as.flatMap code

/-- A list of delimited codes after its length is delimited: the length says where the list ends.
-/
theorem Delimited.counted (hcount : Delimited N count) (h : Delimited S code) :
    Delimited (fun as : List α => N as.length ∧ ∀ a ∈ as, S a)
      (Transcript.counted count code) := by
  intro as bs s t has hbs heq
  rw [Transcript.counted, Transcript.counted, List.append_assoc, List.append_assoc] at heq
  obtain ⟨hlength, heq⟩ := hcount has.1 hbs.1 heq
  exact h.flatMap hlength has.2 hbs.2 heq

/-- A text after its length, so that a reader knows where the text ends. -/
def lengthPrefixed (count : ℕ → List β) (text : List β) : List β :=
  count text.length ++ text

/-- A text after its length is delimited, whatever it holds. -/
theorem Delimited.lengthPrefixed (hcount : Delimited N count) :
    Delimited (fun text : List β => N text.length) (Transcript.lengthPrefixed count) := by
  intro a b s t ha hb heq
  rw [Transcript.lengthPrefixed, Transcript.lengthPrefixed, List.append_assoc,
    List.append_assoc] at heq
  obtain ⟨hlength, heq⟩ := hcount ha hb heq
  exact List.append_inj heq hlength

/-- A tag for a missing value, another before a present one. -/
def optional (none some : β) (code : α → List β) : Option α → List β
  | .none => [none]
  | .some a => some :: code a

/-- A tag that says whether a value is there, and the code of the value where it is. -/
theorem Delimited.optional {none some : β} (hne : none ≠ some) (h : Delimited S code) :
    Delimited (fun value : Option α => ∀ a ∈ value, S a)
      (Transcript.optional none some code) := by
  rintro (_ | a) (_ | b) s t ha hb heq
  · exact ⟨rfl, (List.cons.inj heq).2⟩
  · exact absurd (List.cons.inj heq).1 hne
  · exact absurd (List.cons.inj heq).1.symm hne
  · obtain ⟨hvalue, hrest⟩ := h (ha a rfl) (hb b rfl) (List.cons.inj heq).2
    exact ⟨congrArg Option.some hvalue, hrest⟩

end Transcript
end Lib
end ThinWorkspace
