/-
# Sessions on a transactional data set

A `Session D ε α` is a program that runs against one data set of type `D`.  Each
statement of it may be stopped by an input/output fault, which the session takes
from a list that belongs to its environment: quantifying over the list is
quantifying over every way the statements can fail.  A failed statement leaves
the data as they were, and `transaction` undoes everything its body did when the
body or the commit fails.

The inversion lemmas (`bind_ok`, `exec_ok`, `transaction_ok`, …) take a run apart
one statement at a time.  `dataAfter` is what a session leaves behind, whether
it returns or fails.  `Yields` says that nothing but a fault keeps a session from
its result, and `Runs` what the session does when none meets it; their rules follow
the session's statements.
-/

import Mathlib.Data.Nat.Notation

namespace ThinWorkspace
namespace Lib

/-- The data of a connection and the faults its next statements meet.  An empty list means that no
further statement meets one. -/
structure Connection (D : Type) where
  data : D
  faults : List Bool

/-- A program on a connection, failing with an `ε`.  A session that fails leaves a connection too:
what it had done before the failure, unless a transaction undid it. -/
abbrev Session (D ε α : Type) := EStateM ε (Connection D) α

namespace Session

variable {D ε α β : Type}

/-- Whether the next statement meets a fault.  Every statement takes one element of the list, also
where it meets none. -/
def nextFault : Session D ε Bool := fun c =>
  match c.faults with
  | [] => .ok false c
  | fault :: faults => .ok fault { c with faults }

/-- Stops with `e` unless `p` holds.  It is no statement and meets no fault. -/
def require (p : Prop) [Decidable p] (e : ε) : Session D ε Unit :=
  if p then pure () else throw e

/-- A value that is already computed, or its failure. -/
def ofExcept (r : Except ε α) : Session D ε α := fun c =>
  match r with
  | .ok a => .ok a c
  | .error e => .error e c

/-- A statement that only reads.  A fault stops it before it reads. -/
def query (onFault : ε) (read : D → α) : Session D ε α := do
  if ← nextFault then throw onFault
  fun c => .ok (read c.data) c

/-- A statement that writes: its effect is all or nothing.  `write` may refuse, and then the data
are as they were. -/
def exec (onFault : ε) (write : D → Except ε (α × D)) : Session D ε α := do
  if ← nextFault then throw onFault
  fun c => match write c.data with
    | .ok (a, data) => .ok a { c with data }
    | .error e => .error e c

/-- Continues a failed session with `onError`, from the data it left. -/
def handle {ε' : Type} (x : Session D ε α) (onError : ε → Session D ε' α) : Session D ε' α :=
  fun c => match x c with
  | .ok a c' => .ok a c'
  | .error e c' => onError e c'

/-- Reports a failure in other terms, and leaves the connection as the failure left it. -/
def mapError {ε' : Type} (f : ε → ε') (x : Session D ε α) : Session D ε' α :=
  handle x fun e => throw (f e)

/-- Runs `body` between a begin and a commit; anything short of a commit leaves the data as they
were at the begin.  The begin and the commit are statements, and each may meet a fault. -/
def transaction (onBegin onCommit : ε) (body : Session D ε α) : Session D ε α := do
  if ← nextFault then throw onBegin
  fun c => match (body >>= fun a => do
      if ← nextFault then throw onCommit
      pure a : Session D ε α) c with
    | .ok a c' => .ok a c'
    | .error e c' => .error e { c' with data := c.data }

/-- The data a session leaves behind, whether it returns or fails. -/
def dataAfter (x : Session D ε α) (c : Connection D) : D :=
  match x c with
  | .ok _ c' => c'.data
  | .error _ c' => c'.data

/-- The session does not return: it ends with some error, in some state. -/
def Fails (x : Session D ε α) (c : Connection D) : Prop := ∃ e c', x c = .error e c'

/-! ### Inversion

A run that returned, or failed, is taken apart from its end: each lemma says what must have
happened in the last constructor.  The two on `transaction` carry the meaning of the whole:
a committed transaction is a complete run of its body, and one that does not commit leaves
the data as they were (`transaction_error`). -/

variable {c c' : Connection D} {a : α} {b : β} {e : ε}

/-- A session that returns leaves the data of the connection it returns. -/
theorem dataAfter_ok {x : Session D ε α} (h : x c = .ok a c') : dataAfter x c = c'.data := by
  rw [dataAfter, h]

/-- A sequence that returns has returned from its first part and then from its second. -/
theorem bind_ok {x : Session D ε α} {f : α → Session D ε β} (h : (x >>= f) c = .ok b c') :
    ∃ a c₁, x c = .ok a c₁ ∧ f a c₁ = .ok b c' := by
  cases hx : x c with
  | ok a c₁ => exact ⟨a, c₁, rfl, by simpa [bind, EStateM.bind, hx] using h⟩
  | error e c₁ => simp [bind, EStateM.bind, hx] at h

/-- A sequence that fails has failed in its first part, or has returned from it and failed in its
second. -/
theorem bind_error {x : Session D ε α} {f : α → Session D ε β}
    (h : (x >>= f) c = .error e c') :
    x c = .error e c' ∨ ∃ a c₁, x c = .ok a c₁ ∧ f a c₁ = .error e c' := by
  cases hx : x c with
  | ok a c₁ => exact .inr ⟨a, c₁, rfl, by simpa [bind, EStateM.bind, hx] using h⟩
  | error e₁ c₁ => exact .inl (by simpa [bind, EStateM.bind, hx] using h)

/-- A value is returned as it is, on the same connection. -/
theorem pure_ok {x : α} (h : (pure x : Session D ε α) c = .ok a c') : a = x ∧ c' = c := by
  cases h
  exact ⟨rfl, rfl⟩

/-- Asking for a fault leaves the data: only the list of faults to come gets shorter. -/
theorem nextFault_ok {fault : Bool} (h : (nextFault : Session D ε Bool) c = .ok fault c') :
    c'.data = c.data := by
  unfold nextFault at h
  split at h <;> cases h <;> rfl

/-- Asking for a fault does not fail; it is the statement behind it that may. -/
theorem nextFault_ne_error : (nextFault : Session D ε Bool) c ≠ .error e c' := by
  unfold nextFault
  split <;> simp

/-- A check that passes has been met, and has left everything as it was. -/
theorem require_ok {p : Prop} [Decidable p] {u : Unit}
    (h : (require p e : Session D ε Unit) c = .ok u c') : p ∧ c' = c := by
  unfold require at h
  split at h
  · rename_i hp
    cases h
    exact ⟨hp, rfl⟩
  · cases h

/-- A value that is returned was computed before, without the connection. -/
theorem ofExcept_ok {r : Except ε α} (h : (ofExcept r : Session D ε α) c = .ok a c') :
    r = .ok a ∧ c' = c := by
  cases r <;> cases h
  exact ⟨rfl, rfl⟩

/-- A failure that is returned was computed before, without the connection. -/
theorem ofExcept_error {r : Except ε α} (h : (ofExcept r : Session D ε α) c = .error e c') :
    r = .error e ∧ c' = c := by
  cases r <;> cases h
  exact ⟨rfl, rfl⟩

/-- A handled session returns as the session does, or as its handler does behind a failure of it.
-/
theorem handle_ok {ε' : Type} {x : Session D ε α} {onError : ε → Session D ε' α}
    (h : handle x onError c = .ok a c') :
    x c = .ok a c' ∨ ∃ e c₁, x c = .error e c₁ ∧ onError e c₁ = .ok a c' := by
  unfold handle at h
  split at h
  · rename_i hx
    cases h
    exact .inl hx
  · rename_i e c₁ hx
    exact .inr ⟨e, c₁, hx, h⟩

/-- A handled session fails where both the session and its handler do. -/
theorem handle_error {ε' : Type} {x : Session D ε α} {onError : ε → Session D ε' α} {e' : ε'}
    (h : handle x onError c = .error e' c') :
    ∃ e c₁, x c = .error e c₁ ∧ onError e c₁ = .error e' c' := by
  unfold handle at h
  split at h
  · cases h
  · rename_i e c₁ hx
    exact ⟨e, c₁, hx, h⟩

/-- Other terms for a failure change no success: the same run returns the same value. -/
theorem mapError_ok {ε' : Type} {f : ε → ε'} {x : Session D ε α}
    (h : mapError f x c = .ok a c') : x c = .ok a c' := by
  obtain h | ⟨_, _, _, h⟩ := handle_ok h
  · exact h
  · cases h

/-- A statement that meets a fault stops before it does anything. -/
private theorem faulted {x : Session D ε α} {onFault : ε} {r : EStateM.Result ε (Connection D) α}
    (h : (do if ← nextFault then throw onFault
             x : Session D ε α) c = r) :
    (∃ c₁, c₁.data = c.data ∧ r = .error onFault c₁) ∨
      ∃ c₁, c₁.data = c.data ∧ x c₁ = r := by
  cases hf : (nextFault : Session D ε Bool) c with
  | error e c₁ => exact absurd hf nextFault_ne_error
  | ok fault c₁ =>
    have hd := nextFault_ok hf
    cases fault with
    | true => exact .inl ⟨c₁, hd, by rw [← h]; simp [bind, EStateM.bind, hf]; rfl⟩
    | false => exact .inr ⟨c₁, hd, by rw [← h]; simp [bind, EStateM.bind, hf]⟩

/-- A query that returns gives what is read of the data. -/
theorem query_ok {onFault : ε} {read : D → α}
    (h : (query onFault read : Session D ε α) c = .ok a c') :
    a = read c.data ∧ c'.data = c.data := by
  obtain ⟨_, _, h⟩ | ⟨c₁, hd, h⟩ := faulted h
  · cases h
  · cases h
    exact ⟨by rw [hd], hd⟩

/-- A query fails by a fault alone, since reading is defined on every database. -/
theorem query_error {onFault : ε} {read : D → α}
    (h : (query onFault read : Session D ε α) c = .error e c') :
    e = onFault ∧ c'.data = c.data := by
  obtain ⟨c₁, hd, h⟩ | ⟨c₁, hd, h⟩ := faulted h <;> cases h
  exact ⟨rfl, hd⟩

/-- A write that returns has had its effect, all of it: no fault met this statement. -/
theorem exec_ok {onFault : ε} {write : D → Except ε (α × D)}
    (h : (exec onFault write : Session D ε α) c = .ok a c') :
    write c.data = .ok (a, c'.data) := by
  obtain ⟨_, _, h⟩ | ⟨c₁, hd, h⟩ := faulted h
  · cases h
  · rw [← hd]
    split at h
    · rename_i hw
      cases h
      exact hw
    · cases h

/-- A write that fails has had none; it met a fault or was refused. -/
theorem exec_error {onFault : ε} {write : D → Except ε (α × D)}
    (h : (exec onFault write : Session D ε α) c = .error e c') :
    c'.data = c.data ∧ (e = onFault ∨ write c.data = .error e) := by
  obtain ⟨c₁, hd, h⟩ | ⟨c₁, hd, h⟩ := faulted h
  · cases h
    exact ⟨hd, .inl rfl⟩
  · split at h
    · cases h
    · rename_i hw
      cases h
      exact ⟨hd, .inr (hd ▸ hw)⟩

/-- A sequence that begins with a check, taken apart: the check was met, and the rest ran from the
same connection. -/
theorem require_bind_ok {p : Prop} [Decidable p] {f : Unit → Session D ε β}
    (h : (require p e >>= f) c = .ok b c') : p ∧ f () c = .ok b c' := by
  obtain ⟨_, c₁, hreq, h⟩ := bind_ok h
  obtain ⟨hp, hc⟩ := require_ok hreq
  exact ⟨hp, hc ▸ h⟩

/-- A sequence that begins with a computed value, taken apart. -/
theorem ofExcept_bind_ok {r : Except ε α} {f : α → Session D ε β}
    (h : (ofExcept r >>= f) c = .ok b c') : ∃ a, r = .ok a ∧ f a c = .ok b c' := by
  obtain ⟨a, c₁, hof, h⟩ := bind_ok h
  obtain ⟨hr, hc⟩ := ofExcept_ok hof
  exact ⟨a, hr, hc ▸ h⟩

/-- A sequence that begins with a query, taken apart: the rest got what was read, and found the
same data. -/
theorem query_bind_ok {onFault : ε} {read : D → α} {f : α → Session D ε β}
    (h : (query onFault read >>= f) c = .ok b c') :
    ∃ c₁, c₁.data = c.data ∧ f (read c.data) c₁ = .ok b c' := by
  obtain ⟨a, c₁, hq, h⟩ := bind_ok h
  obtain ⟨ha, hc⟩ := query_ok hq
  exact ⟨c₁, hc, ha ▸ h⟩

/-- A sequence that begins with a write whose failure is mapped, taken apart. -/
theorem exec_bind_ok {ε' : Type} {g : ε' → ε} {onFault : ε'} {write : D → Except ε' (α × D)}
    {f : α → Session D ε β} (h : (mapError g (exec onFault write) >>= f) c = .ok b c') :
    ∃ a c₁, write c.data = .ok (a, c₁.data) ∧ f a c₁ = .ok b c' := by
  obtain ⟨a, c₁, hx, h⟩ := bind_ok h
  exact ⟨a, c₁, exec_ok (mapError_ok hx), h⟩

/-- A committed transaction is a complete run of its body. -/
theorem transaction_ok {onBegin onCommit : ε} {body : Session D ε α}
    (h : transaction onBegin onCommit body c = .ok a c') :
    ∃ c₁ c₂, c₁.data = c.data ∧ body c₁ = .ok a c₂ ∧ c'.data = c₂.data := by
  obtain ⟨_, _, h⟩ | ⟨c₁, hd, h⟩ := faulted h
  · cases h
  · dsimp only at h
    split at h
    · rename_i a' c₃ hb
      cases h
      obtain ⟨a₁, c₂, hbody, hcommit⟩ := bind_ok hb
      obtain ⟨_, _, h⟩ | ⟨c₄, hd₄, h⟩ := faulted hcommit
      · cases h
      · cases h
        exact ⟨c₁, c₂, hd, hbody, hd₄⟩
    · cases h

/-- **Atomicity.**  A transaction that does not return has changed nothing. -/
theorem transaction_error {onBegin onCommit : ε} {body : Session D ε α}
    (h : transaction onBegin onCommit body c = .error e c') : c'.data = c.data := by
  obtain ⟨c₁, hd, h⟩ | ⟨c₁, hd, h⟩ := faulted h
  · cases h
    exact hd
  · dsimp only at h
    split at h
    · cases h
    · cases h
      exact hd

/-! ### What a session leaves behind

`Leaves` relates the data at the end of a session to the data at its beginning, for returns
and failures alike, so an invariant of a store is one `Leaves` for each of its calls.  What
only reads is neutral in it on both sides (`Reads.bind_leaves`, `Leaves.bind_reads`), so the
proofs speak of the writes. -/

/-- A session that, however it ends, leaves data related by `R` to those it found.  It is how an
invariant is carried through a session that may fail anywhere. -/
def Leaves (R : D → D → Prop) (x : Session D ε α) : Prop :=
  ∀ c, R c.data (dataAfter x c)

/-- A session that changes nothing, whether it returns or fails. -/
def Reads (x : Session D ε α) : Prop := Leaves Eq x

variable {R : D → D → Prop}

/-- In particular where it returns: the data are related as they are at every end. -/
theorem Leaves.ok {x : Session D ε α} (hx : Leaves R x) (h : x c = .ok a c') :
    R c.data c'.data := by
  have := hx c
  rwa [dataAfter, h] at this

/-- In particular where it fails: the data are related as they are at every end. -/
theorem Leaves.error {x : Session D ε α} (hx : Leaves R x) (h : x c = .error e c') :
    R c.data c'.data := by
  have := hx c
  rwa [dataAfter, h] at this

/-- The two cases together: a relation at the end of every run is one where it returns and one
where it fails. -/
theorem leaves_of {x : Session D ε α} (hok : ∀ c a c', x c = .ok a c' → R c.data c'.data)
    (herror : ∀ c e c', x c = .error e c' → R c.data c'.data) : Leaves R x := by
  intro c
  unfold dataAfter
  split
  · rename_i h
    exact hok _ _ _ h
  · rename_i h
    exact herror _ _ _ h

/-- A session that changes nothing leaves what a reflexive relation allows. -/
theorem Reads.leaves {x : Session D ε α} (hR : ∀ d, R d d) (hx : Reads x) : Leaves R x :=
  fun c => hx c ▸ hR c.data

/-- Reading first does not matter to what is left: the relation is that of the part behind it. -/
theorem Reads.bind_leaves {x : Session D ε α} {f : α → Session D ε β} (hR : ∀ d, R d d)
    (hx : Reads x) (hf : ∀ a, Leaves R (f a)) : Leaves R (x >>= f) :=
  leaves_of
    (fun _ _ _ h => by
      obtain ⟨a, c₁, h₁, h₂⟩ := bind_ok h
      exact hx.ok h₁ ▸ (hf a).ok h₂)
    (fun _ _ _ h => by
      obtain h | ⟨a, c₁, h₁, h₂⟩ := bind_error h
      · exact hx.error h ▸ hR _
      · exact hx.ok h₁ ▸ (hf a).error h₂)

/-- Nor does reading afterwards: the relation is that of the part before it. -/
theorem Leaves.bind_reads {x : Session D ε α} {f : α → Session D ε β} (hx : Leaves R x)
    (hf : ∀ a, Reads (f a)) : Leaves R (x >>= f) :=
  leaves_of
    (fun _ _ _ h => by
      obtain ⟨a, c₁, h₁, h₂⟩ := bind_ok h
      exact (hf a).ok h₂ ▸ hx.ok h₁)
    (fun _ _ _ h => by
      obtain h | ⟨a, c₁, h₁, h₂⟩ := bind_error h
      · exact hx.error h
      · exact (hf a).error h₂ ▸ hx.ok h₁)

/-- Two parts that change nothing change nothing together. -/
theorem Reads.bind {x : Session D ε α} {f : α → Session D ε β} (hx : Reads x)
    (hf : ∀ a, Reads (f a)) : Reads (x >>= f) :=
  Leaves.bind_reads hx hf

/-- A value changes nothing, since it takes no statement. -/
theorem reads_pure {x : α} : Reads (pure x : Session D ε α) := fun _ => rfl

/-- A failure changes nothing, since it takes no statement. -/
theorem reads_throw : Reads (throw e : Session D ε α) := fun _ => rfl

/-- A check changes nothing, whether it passes or not. -/
theorem reads_require {p : Prop} [Decidable p] : Reads (require p e : Session D ε Unit) := by
  unfold require
  split
  · exact reads_pure
  · exact reads_throw

/-- A value that was computed before changes nothing, and neither does its failure. -/
theorem reads_ofExcept {r : Except ε α} : Reads (ofExcept r : Session D ε α) := by
  intro c
  cases r <;> rfl

/-- A query changes nothing: it hands out what it reads, or meets a fault. -/
theorem reads_query {onFault : ε} {read : D → α} : Reads (query onFault read) :=
  leaves_of (fun _ _ _ h => (query_ok h).2.symm) (fun _ _ _ h => (query_error h).2.symm)

/-- A handler that changes nothing leaves what the session has left. -/
theorem Leaves.handle {ε' : Type} {x : Session D ε α} {onError : ε → Session D ε' α}
    (hx : Leaves R x) (he : ∀ e, Reads (onError e)) : Leaves R (handle x onError) :=
  leaves_of
    (fun _ _ _ h => by
      obtain h | ⟨e, c₁, h₁, h₂⟩ := handle_ok h
      · exact hx.ok h
      · exact (he e).ok h₂ ▸ hx.error h₁)
    (fun _ _ _ h => by
      obtain ⟨e, c₁, h₁, h₂⟩ := handle_error h
      exact (he e).error h₂ ▸ hx.error h₁)

/-- Other terms for a failure leave the same data, as the failure itself does. -/
theorem Leaves.mapError {ε' : Type} {f : ε → ε'} {x : Session D ε α} (hx : Leaves R x) :
    Leaves R (mapError f x) :=
  hx.handle fun _ => reads_throw

/-- A statement leaves what it wrote, or nothing new where it met a fault or was refused. -/
theorem leaves_exec {onFault : ε} {write : D → Except ε (α × D)} (hR : ∀ d, R d d)
    (hw : ∀ d a d', write d = .ok (a, d') → R d d') : Leaves R (exec onFault write) :=
  leaves_of (fun _ _ _ h => hw _ _ _ (exec_ok h)) (fun _ _ _ h => (exec_error h).1 ▸ hR _)

/-- A transaction leaves what a complete run of its body leaves, or nothing new. -/
theorem leaves_transaction {onBegin onCommit : ε} {body : Session D ε α} (hR : ∀ d, R d d)
    (hbody : ∀ c a c', body c = .ok a c' → R c.data c'.data) :
    Leaves R (transaction onBegin onCommit body) :=
  leaves_of
    (fun _ _ _ h => by
      obtain ⟨c₁, c₂, h₁, hb, h₂⟩ := transaction_ok h
      rw [← h₁, h₂]
      exact hbody _ _ _ hb)
    (fun _ _ _ h => transaction_error h ▸ hR _)

/-! ### Evaluation

The same constructors read forwards: what a session does is computed from the data and the
faults that are to come.  These equations serve where a run has to be shown, not taken
apart. -/

section Evaluation

variable {d d₁ d₂ : D} {faults : List Bool}

/-- A query as a function of the data and of the first fault. -/
theorem query_run {onFault : ε} {read : D → α} : query onFault read ⟨d, faults⟩ =
    if faults.head?.getD false = true then .error onFault ⟨d, faults.tail⟩
    else .ok (read d) ⟨d, faults.tail⟩ := by
  rcases faults with _ | ⟨_ | _, faults⟩ <;> rfl

/-- A write as a function of the data and of the first fault. -/
theorem exec_run {onFault : ε} {write : D → Except ε (α × D)} : exec onFault write ⟨d, faults⟩ =
    if faults.head?.getD false = true then .error onFault ⟨d, faults.tail⟩
    else match write d with
      | .ok (a, d') => .ok a ⟨d', faults.tail⟩
      | .error e => .error e ⟨d, faults.tail⟩ := by
  rcases faults with _ | ⟨_ | _, faults⟩ <;> rfl

/-- A sequence as a function of its first part: the connection is threaded through, and a failure
ends it. -/
theorem bind_run {x : Session D ε α} {f : α → Session D ε β} {c : Connection D} :
    (x >>= f) c = match x c with
      | .ok a c' => f a c'
      | .error e c' => .error e c' := by
  show EStateM.bind x f c = _
  unfold EStateM.bind
  cases x c <;> rfl

/-- A transaction that begins runs its body and commits, or restores the data. -/
theorem transaction_run {onBegin onCommit : ε} {body : Session D ε α} :
    transaction onBegin onCommit body ⟨d, faults⟩ =
      if faults.head?.getD false = true then .error onBegin ⟨d, faults.tail⟩
      else match (body >>= fun a => do
          if ← nextFault then throw onCommit
          pure a : Session D ε α) ⟨d, faults.tail⟩ with
        | .ok a c' => .ok a c'
        | .error e c' => .error e { c' with data := d } := by
  rcases faults with _ | ⟨_ | _, faults⟩ <;> rfl

/-! ### Runs that only a fault stops

The other direction of correctness: a call whose checks hold does return, unless a fault
stops it.  `Yields` follows the code with the data that each statement leaves, and collects
in `stop` the errors that a fault may show as. -/

/-- From `d` the session returns `a` and leaves `d'`, unless a fault stops it, which
shows as an error in `stop`. -/
def Yields (stop : ε → Prop) (x : Session D ε α) (d : D) (a : α) (d' : D) : Prop :=
  ∀ faults, (∃ rest, x ⟨d, faults⟩ = .ok a ⟨d', rest⟩ ∧ ∀ fault ∈ rest, fault ∈ faults) ∨
    ∃ e c, x ⟨d, faults⟩ = .error e c ∧ stop e ∧ true ∈ faults

variable {stop : ε → Prop}

/-- A value is its own result, and no fault can stop it. -/
theorem yields_pure : Yields stop (pure a : Session D ε α) d a d :=
  fun faults => .inl ⟨faults, rfl, fun _ h => h⟩

/-- A value that was computed before is its own result. -/
theorem yields_ofExcept {r : Except ε α} (h : r = .ok a) :
    Yields stop (ofExcept r : Session D ε α) d a d := by
  subst h
  exact fun faults => .inl ⟨faults, rfl, fun _ h => h⟩

/-- A check that holds is passed, with the data as they are. -/
theorem yields_require {p : Prop} [Decidable p] (h : p) :
    Yields stop (require p e : Session D ε Unit) d () d := by
  unfold require
  rw [if_pos h]
  exact yields_pure

/-- A fault that the next statement meets is one of the list. -/
theorem mem_of_head {faults : List Bool} (h : faults.head?.getD false = true) :
    true ∈ faults := by
  cases faults with
  | nil => cases h
  | cons fault faults =>
    rw [List.head?_cons, Option.getD_some] at h
    exact h ▸ List.mem_cons_self

/-- A query gives what is read, or the fault shows as an error in `stop`. -/
theorem yields_query {onFault : ε} {read : D → α} (h : stop onFault) :
    Yields stop (query onFault read) d (read d) d := by
  intro faults
  rw [query_run]
  split
  · rename_i hfault
    exact .inr ⟨_, _, rfl, h, mem_of_head hfault⟩
  · exact .inl ⟨_, rfl, fun _ => List.mem_of_mem_tail⟩

/-- A write that is not refused has its effect, or the fault shows as an error in `stop`. -/
theorem yields_exec {onFault : ε} {write : D → Except ε (α × D)} (h : stop onFault)
    (hwrite : write d = .ok (a, d₁)) : Yields stop (exec onFault write) d a d₁ := by
  intro faults
  rw [exec_run, hwrite]
  split
  · rename_i hfault
    exact .inr ⟨_, _, rfl, h, mem_of_head hfault⟩
  · exact .inl ⟨_, rfl, fun _ => List.mem_of_mem_tail⟩

/-- Two parts, the second from the data that the first leaves. -/
theorem Yields.bind {x : Session D ε α} {f : α → Session D ε β} (hx : Yields stop x d a d₁)
    (hf : Yields stop (f a) d₁ b d₂) : Yields stop (x >>= f) d b d₂ := by
  intro faults
  rcases hx faults with ⟨rest, hrun, hrest⟩ | ⟨e, c, hrun, he, hfault⟩
  · have hbind : (x >>= f) ⟨d, faults⟩ = f a ⟨d₁, rest⟩ := by
      rw [bind_run, hrun]
    rw [hbind]
    rcases hf rest with ⟨rest', hrun', hrest'⟩ | ⟨e, c, hrun', he, hfault⟩
    · exact .inl ⟨rest', hrun', fun fault h => hrest fault (hrest' fault h)⟩
    · exact .inr ⟨e, c, hrun', he, hrest _ hfault⟩
  · rw [bind_run, hrun]
    exact .inr ⟨e, c, rfl, he, hfault⟩

/-- Other terms for a failure, which must be errors of the new kind. -/
theorem Yields.mapError {ε' : Type} {stop' : ε' → Prop} {f : ε → ε'} {x : Session D ε α}
    (hx : Yields stop x d a d₁) (h : ∀ e, stop e → stop' (f e)) :
    Yields stop' (Session.mapError f x) d a d₁ := by
  intro faults
  unfold Session.mapError handle
  rcases hx faults with ⟨rest, hrun, hrest⟩ | ⟨e, c, hrun, he, hfault⟩
  · rw [hrun]
    exact .inl ⟨rest, rfl, hrest⟩
  · rw [hrun]
    exact .inr ⟨f e, c, rfl, h e he, hfault⟩

/-- A transaction has the result of its body, where faults at its begin and its commit show as
errors in `stop` as well. -/
theorem yields_transaction {onBegin onCommit : ε} {body : Session D ε α} (hbegin : stop onBegin)
    (hcommit : stop onCommit) (hbody : Yields stop body d a d₁) :
    Yields stop (transaction onBegin onCommit body) d a d₁ := by
  have hcommitted : Yields stop (body >>= fun a => do
      if ← nextFault then throw onCommit
      pure a : Session D ε α) d a d₁ := by
    refine hbody.bind fun faults => ?_
    rcases faults with _ | ⟨_ | _, faults⟩
    · exact .inl ⟨[], rfl, fun _ h => h⟩
    · exact .inl ⟨faults, rfl, fun _ => List.mem_cons_of_mem _⟩
    · exact .inr ⟨onCommit, ⟨d₁, faults⟩, rfl, hcommit, List.mem_cons_self⟩
  intro faults
  rw [transaction_run]
  split
  · rename_i hfault
    exact .inr ⟨onBegin, _, rfl, hbegin, mem_of_head hfault⟩
  · rcases hcommitted faults.tail with ⟨rest, hrun, hrest⟩ | ⟨e, c, hrun, he, hfault⟩
    · rw [hrun]
      exact .inl ⟨rest, rfl, fun fault h => List.mem_of_mem_tail (hrest fault h)⟩
    · rw [hrun]
      exact .inr ⟨e, _, rfl, he, List.mem_of_mem_tail hfault⟩

/-! ### Runs of a known length

`Yields` does not say when a fault strikes.  `Runs` counts the statements, so that a fault
at one of them, and no fault elsewhere, makes the session fail: this is what a statement
about a fault at a given place needs. -/

/-- The session takes `n` statements, returns `a` and leaves `d'`; a fault that one of
the `n` meets makes it fail. -/
def Runs (n : ℕ) (x : Session D ε α) (d : D) (a : α) (d' : D) : Prop :=
  ∀ faults, (true ∉ faults.take n → x ⟨d, faults⟩ = .ok a ⟨d', faults.drop n⟩) ∧
    (true ∈ faults.take n → Fails x ⟨d, faults⟩)

variable {n m : ℕ}

/-- A value takes no statement, so no fault can meet it. -/
theorem runs_pure : Runs 0 (pure a : Session D ε α) d a d :=
  fun _ => ⟨fun _ => rfl, fun h => absurd h List.not_mem_nil⟩

/-- A check takes no statement, so no fault can meet it. -/
theorem runs_require {p : Prop} [Decidable p] (h : p) :
    Runs 0 (require p e : Session D ε Unit) d () d := by
  unfold require
  rw [if_pos h]
  exact runs_pure

/-- The one statement meets a fault where the first element of the list is one. -/
theorem mem_take_one : true ∈ faults.take 1 ↔ faults.head?.getD false = true := by
  rcases faults with _ | ⟨_ | _, faults⟩ <;> simp

/-- A query is one statement, and without a fault it returns what it reads. -/
theorem runs_query {onFault : ε} {read : D → α} : Runs 1 (query onFault read) d (read d) d := by
  intro faults
  unfold Fails
  rw [mem_take_one, query_run, List.drop_one]
  exact ⟨fun h => if_neg h, fun h => ⟨_, _, if_pos h⟩⟩

/-- A write is one statement, and without a fault it has the effect computed for it. -/
theorem runs_exec {onFault : ε} {write : D → Except ε (α × D)} (hwrite : write d = .ok (a, d₁)) :
    Runs 1 (exec onFault write) d a d₁ := by
  intro faults
  unfold Fails
  rw [mem_take_one, exec_run, hwrite, List.drop_one]
  exact ⟨fun h => if_neg h, fun h => ⟨_, _, if_pos h⟩⟩

/-- The statements of two parts add up, and so does what they do to the data. -/
theorem Runs.bind {x : Session D ε α} {f : α → Session D ε β} (hx : Runs n x d a d₁)
    (hf : Runs m (f a) d₁ b d₂) : Runs (n + m) (x >>= f) d b d₂ := by
  intro faults
  unfold Fails
  rw [List.take_add, List.mem_append, bind_run]
  by_cases hfirst : true ∈ faults.take n
  · obtain ⟨e, c, hrun⟩ := (hx faults).2 hfirst
    rw [hrun]
    exact ⟨fun h => absurd (.inl hfirst) h, fun _ => ⟨e, c, rfl⟩⟩
  · rw [(hx faults).1 hfirst]
    obtain ⟨hok, herror⟩ := hf (faults.drop n)
    rw [List.drop_drop] at hok
    exact ⟨fun h => hok fun hrest => h (.inr hrest), fun h => herror (h.resolve_left hfirst)⟩

/-- Other terms for a failure take no statement, and a run that returns is the same. -/
theorem Runs.mapError {ε' : Type} {f : ε → ε'} {x : Session D ε α} (hx : Runs n x d a d₁) :
    Runs n (Session.mapError f x) d a d₁ := by
  intro faults
  unfold Fails Session.mapError handle
  constructor
  · intro h
    rw [(hx faults).1 h]
  · intro h
    obtain ⟨e, c, hrun⟩ := (hx faults).2 h
    rw [hrun]
    exact ⟨f e, c, rfl⟩

/-- A transaction takes the statements of its body, the begin and the commit. -/
theorem runs_transaction {onBegin onCommit : ε} {body : Session D ε α}
    (hbody : Runs n body d a d₁) :
    Runs (1 + (n + 1)) (transaction onBegin onCommit body) d a d₁ := by
  have hcommit : Runs 1 (do
      if ← nextFault then throw onCommit
      pure a : Session D ε α) d₁ a d₁ := by
    intro faults
    rcases faults with _ | ⟨_ | _, faults⟩
    · exact ⟨fun _ => rfl, fun h => absurd h List.not_mem_nil⟩
    · exact ⟨fun _ => rfl, fun h => by simp at h⟩
    · exact ⟨fun h => absurd List.mem_cons_self h, fun _ => ⟨onCommit, _, rfl⟩⟩
  have hcommitted := hbody.bind (f := fun a => do
    if ← nextFault then throw onCommit
    pure a) hcommit
  intro faults
  unfold Fails
  rw [List.take_add, List.mem_append, mem_take_one, List.drop_one, transaction_run]
  by_cases hfirst : faults.head?.getD false = true
  · rw [if_pos hfirst]
    exact ⟨fun h => absurd (.inl hfirst) h, fun _ => ⟨_, _, rfl⟩⟩
  · rw [if_neg hfirst]
    constructor
    · intro h
      have hdrop : faults.tail.drop (n + 1) = faults.drop (1 + (n + 1)) := by
        rw [← List.drop_one, List.drop_drop]
      rw [(hcommitted faults.tail).1 fun hrest => h (.inr hrest), hdrop]
    · intro h
      obtain ⟨e, c, hrun⟩ := (hcommitted faults.tail).2 (h.resolve_left hfirst)
      rw [hrun]
      exact ⟨e, _, rfl⟩

end Evaluation

end Session
end Lib
end ThinWorkspace
