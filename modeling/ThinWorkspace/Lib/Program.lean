/-
# Programs that call an outside world

A `Program` issues operations one at a time and continues with whatever result
the outside world gives.  An `Environment` says which results an operation may
have in a state and which states it may leave, so a statement about every run
in an environment is one about every behaviour of that world.

`Safe` is the weakest precondition of such a run: every operation issued meets a
guard in the state it is issued in, and every outcome meets a postcondition.
`Safe.of_issues`, `Safe.of_returns` and `Safe.of_visits` carry it over to the runs,
complete or stopped, and `Only.safe` is the frame rule for a part of a program that issues
only operations of one kind.  Where the answer of every operation is known,
`evaluate` is the outcome of a program, and `Only.evaluate_of_returns` that of its
runs.
-/

namespace ThinWorkspace
namespace Lib

/-- A program over the operations `Op` that returns an `α` or fails with an `ε`.  What follows an
operation is a function of its result, so a program is the tree of all its runs. -/
inductive Program (Op : Type) (Res : Op → Type) (ε α : Type) where
  | ret (a : α)
  | fail (e : ε)
  | call (op : Op) (next : Res op → Program Op Res ε α)

namespace Program

variable {Op : Type} {Res : Op → Type} {ε ε' α β : Type}

/-- Continues a program that returned.  A failure ends the whole. -/
def bind : Program Op Res ε α → (α → Program Op Res ε β) → Program Op Res ε β
  | ret a, f => f a
  | fail e, _ => fail e
  | call op next, f => call op fun r => bind (next r) f

instance : Monad (Program Op Res ε) where
  pure := ret
  bind := bind

/-- Issues one operation and returns what it results in. -/
def perform (op : Op) : Program Op Res ε (Res op) := call op ret

/-- The outcome of a program, with its failure as a value, so that what follows can look at it. -/
def attempt : Program Op Res ε α → Program Op Res ε' (Except ε α)
  | ret a => ret (.ok a)
  | fail e => ret (.error e)
  | call op next => call op fun r => attempt (next r)

/-- Continues a program that failed.  What it has done before its failure stays done. -/
def handle (x : Program Op Res ε α) (onError : ε → Program Op Res ε' α) :
    Program Op Res ε' α :=
  (attempt x : Program Op Res ε' (Except ε α)).bind fun
    | .ok a => ret a
    | .error e => onError e

instance : MonadExceptOf ε (Program Op Res ε) where
  throw := fail
  tryCatch := handle

/-- A value that is already computed, or its failure in other terms.  It issues nothing. -/
def ofExcept (f : ε' → ε) : Except ε' α → Program Op Res ε α
  | .ok a => ret a
  | .error e => fail (f e)

/-- A program that ends in a fallible value, with the failure in other terms: the `?` behind a
call. -/
def orFail (f : ε' → ε) (x : Program Op Res ε (Except ε' α)) : Program Op Res ε α :=
  x.bind (ofExcept f)

/-- Reports a failure in other terms: the `map_err` of a call. -/
def mapError (f : ε → ε') (x : Program Op Res ε α) : Program Op Res ε' α :=
  x.attempt.bind (ofExcept f)

end Program

/-! ### Environments and runs

A run is described from outside by four relations between a program, its environment and
what is seen: an operation it issues, an outcome it returns, a state it visits, and the
sequence of states it passes.  All four hold of runs that are stopped anywhere, `Returns`
apart, so what is proved of them covers a process that is killed. -/

/-- What the outside world may do: `step s op r s'` when `op`, issued in the
state `s`, may have the result `r` and leave `s'`. -/
structure Environment (Op : Type) (Res : Op → Type) (σ : Type) where
  step : σ → (op : Op) → Res op → σ → Prop

namespace Program

variable {Op : Type} {Res : Op → Type} {ε ε' α β σ : Type}
variable (env : Environment Op Res σ)

/-- Some run of the program from `s` issues `op` in the state `s'`. -/
inductive Issues : Program Op Res ε α → σ → Op → σ → Prop
  | here {op : Op} {next : Res op → Program Op Res ε α} {s : σ} : Issues (call op next) s op s
  | later {op op' : Op} {next : Res op → Program Op Res ε α} {s s₁ s' : σ} {r : Res op}
      (step : env.step s op r s₁) (rest : Issues (next r) s₁ op' s') :
      Issues (call op next) s op' s'

/-- Some run of the program from `s` ends with the outcome in the state `s'`. -/
inductive Returns : Program Op Res ε α → σ → Except ε α → σ → Prop
  | ret {a : α} {s : σ} : Returns (ret a) s (.ok a) s
  | fail {e : ε} {s : σ} : Returns (fail e) s (.error e) s
  | call {op : Op} {next : Res op → Program Op Res ε α} {s s₁ s' : σ} {r : Res op}
      {outcome : Except ε α} (step : env.step s op r s₁)
      (rest : Returns (next r) s₁ outcome s') : Returns (call op next) s outcome s'

/-- Some run of the program from `s`, complete or stopped, is in `s'` between two operations.  A
run that is killed ends in such a state. -/
inductive Visits : Program Op Res ε α → σ → σ → Prop
  | here {x : Program Op Res ε α} {s : σ} : Visits x s s
  | later {op : Op} {next : Res op → Program Op Res ε α} {s s₁ s' : σ} {r : Res op}
      (step : env.step s op r s₁) (rest : Visits (next r) s₁ s') : Visits (call op next) s s'

/-- Some run of the program from `s`, complete or stopped, passes through these states after its
calls, in this order, and is then in `s'`. -/
inductive Passes : Program Op Res ε α → σ → List σ → σ → Prop
  | here {x : Program Op Res ε α} {s : σ} : Passes x s [] s
  | later {op : Op} {next : Res op → Program Op Res ε α} {s s₁ s' : σ} {r : Res op}
      {moments : List σ} (step : env.step s op r s₁) (rest : Passes (next r) s₁ moments s') :
      Passes (call op next) s (s₁ :: moments) s'

/-! ### The precondition of a safe run

`Safe` is the one notion that the proofs about programs go through.  It is a recursion along
the program and quantifies over every result the environment allows, so its rules follow the
constructors: a value, a failure, an operation with what follows it.  The soundness lemmas
`Safe.of_issues`, `Safe.of_returns`, `Safe.of_visits` and `Safe.of_passes` turn it into
statements about runs, each by an induction on the run. -/

/-- Every operation issued meets `guard`, and every outcome meets `post`.  It is defined along the
program, so a proof follows the program, and no run is written down. -/
def Safe (guard : Op → σ → Prop) (post : Except ε α → σ → Prop) :
    Program Op Res ε α → σ → Prop
  | ret a, s => post (.ok a) s
  | fail e, s => post (.error e) s
  | call op next, s => guard op s ∧ ∀ r s', env.step s op r s' → Safe guard post (next r) s'

variable {env} {guard : Op → σ → Prop} {post post' : Except ε α → σ → Prop} {s s' : σ}
variable {x : Program Op Res ε α}

/-- **Soundness for effects.**  In a run of a safe program, however far it gets,
an operation is issued only where its guard holds. -/
theorem Safe.of_issues (h : Safe env guard post x s) {op : Op} (run : Issues env x s op s') :
    guard op s' := by
  induction run with
  | here => exact h.1
  | later step _ ih => exact ih (h.2 _ _ step)

/-- **Soundness for outcomes.**  What a run of a safe program ends with meets the postcondition, in
the state it ends in. -/
theorem Safe.of_returns (h : Safe env guard post x s) {outcome : Except ε α}
    (run : Returns env x s outcome s') : post outcome s' := by
  induction run with
  | ret => exact h
  | fail => exact h
  | call step _ ih => exact ih (h.2 _ _ step)

/-- **Soundness for states.**  What every guarded operation keeps holds throughout
a run of a safe program. -/
theorem Safe.of_visits (inv : σ → Prop) (h : Safe env guard post x s) (hinv : inv s)
    (hstep : ∀ s op r s', guard op s → inv s → env.step s op r s' → inv s')
    (run : Visits env x s s') : inv s' := by
  induction run with
  | here => exact hinv
  | later step _ ih => exact ih (h.2 _ _ step) (hstep _ _ _ _ h.1 hinv step)

/-- **Soundness for sequences of states.**  If every guarded operation keeps an invariant and
moves the state along a reflexive and transitive relation, a run of a safe program moves along
the relation from each of its states to every later one. -/
theorem Safe.of_passes (inv : σ → Prop) {R : σ → σ → Prop} (refl : ∀ s, R s s)
    (trans : ∀ s₁ s₂ s₃, R s₁ s₂ → R s₂ s₃ → R s₁ s₃) (h : Safe env guard post x s) (hinv : inv s)
    (hstep : ∀ s op r s', guard op s → inv s → env.step s op r s' → inv s' ∧ R s s')
    {moments : List σ} (run : Passes env x s moments s') :
    inv s' ∧ (∀ m ∈ moments, R s m ∧ R m s') ∧ R s s' ∧ moments.Pairwise R := by
  induction run with
  | here => exact ⟨hinv, nofun, refl _, .nil⟩
  | @later op next s s₁ s' r moments step rest ih =>
    obtain ⟨hinv₁, hfirst⟩ := hstep _ _ _ _ h.1 hinv step
    obtain ⟨hlast, hmoments, hrest, hordered⟩ := ih (h.2 _ _ step) hinv₁
    refine ⟨hlast, ?_, trans _ _ _ hfirst hrest, .cons (fun m hm => (hmoments m hm).1) hordered⟩
    intro m hm
    rcases List.mem_cons.mp hm with rfl | hm
    · exact ⟨hfirst, hrest⟩
    · exact ⟨trans _ _ _ hfirst (hmoments m hm).1, (hmoments m hm).2⟩

/-- The last state of a run is one of its states. -/
theorem Returns.visits {outcome : Except ε α} (run : Returns env x s outcome s') :
    Visits env x s s' := by
  induction run with
  | ret => exact .here
  | fail => exact .here
  | call step _ ih => exact .later step ih

/-- A value is safe where it meets the postcondition: no operation is issued, so nothing is asked
of the guard. -/
@[simp] theorem safe_pure {a : α} :
    Safe env guard post (pure a : Program Op Res ε α) s ↔ post (.ok a) s := Iff.rfl

/-- The same of the constructor, which the simplifier meets behind `evaluate`. -/
@[simp] theorem safe_ret {a : α} :
    Safe env guard post (ret a : Program Op Res ε α) s ↔ post (.ok a) s := Iff.rfl

/-- A failure is safe where it meets the postcondition, which speaks of failures as it does of
values. -/
@[simp] theorem safe_throw {e : ε} :
    Safe env guard post (throw e : Program Op Res ε α) s ↔ post (.error e) s := Iff.rfl

/-- The same of the constructor, to which `throw` reduces. -/
@[simp] theorem safe_fail {e : ε} :
    Safe env guard post (fail e : Program Op Res ε α) s ↔ post (.error e) s := Iff.rfl

/-- The postcondition may be weakened, at the end of every run. -/
theorem Safe.mono (h : Safe env guard post x s)
    (hpost : ∀ outcome s', post outcome s' → post' outcome s') : Safe env guard post' x s := by
  induction x generalizing s with
  | ret a => exact hpost _ _ h
  | fail e => exact hpost _ _ h
  | call op next ih => exact ⟨h.1, fun r s' step => ih r (h.2 r s' step)⟩

/-- The guard may be weakened, at every operation that is issued. -/
theorem Safe.weaken {guard' : Op → σ → Prop} (h : Safe env guard post x s)
    (hguard : ∀ op s, guard op s → guard' op s) : Safe env guard' post x s := by
  induction x generalizing s with
  | ret a => exact h
  | fail e => exact h
  | call op next ih => exact ⟨hguard op s h.1, fun r s' step => ih r (h.2 r s' step)⟩

/-- What the rest of a program must satisfy after a part of it. -/
def afterwards (env : Environment Op Res σ) (guard : Op → σ → Prop)
    (post : Except ε β → σ → Prop) (f : α → Program Op Res ε β) : Except ε α → σ → Prop
  | .ok a, s => Safe env guard post (f a) s
  | .error e, s => post (.error e) s

/-- Two specifications of one program hold together, so that each can be proved by itself. -/
theorem Safe.and (h : Safe env guard post x s) (h' : Safe env guard post' x s) :
    Safe env guard (fun outcome s' => post outcome s' ∧ post' outcome s') x s := by
  induction x generalizing s with
  | ret a => exact ⟨h, h'⟩
  | fail e => exact ⟨h, h'⟩
  | call op next ih => exact ⟨h.1, fun r s' step => ih r (h.2 r s' step) (h'.2 r s' step)⟩

/-- A sequence is safe where its first part is, with the safety of the rest for a postcondition. -/
theorem safe_bind {f : α → Program Op Res ε β} {post : Except ε β → σ → Prop} :
    Safe env guard post (x >>= f) s ↔ Safe env guard (afterwards env guard post f) x s := by
  change Safe env guard post (x.bind f) s ↔ _
  induction x generalizing s with
  | ret a => exact Iff.rfl
  | fail e => exact Iff.rfl
  | call op next ih =>
    exact and_congr Iff.rfl (forall_congr' fun r => forall_congr' fun s' =>
      imp_congr Iff.rfl (ih r))

/-- The rule for a part whose specification is known: the specification, then
the rest from wherever the part returned or failed. -/
theorem Safe.bind {f : α → Program Op Res ε β} {mid : Except ε α → σ → Prop}
    {post : Except ε β → σ → Prop} (hx : Safe env guard mid x s)
    (hok : ∀ a s', mid (.ok a) s' → Safe env guard post (f a) s')
    (herror : ∀ e s', mid (.error e) s' → post (.error e) s') :
    Safe env guard post (x >>= f) s :=
  safe_bind.mpr (hx.mono fun outcome s' h => by
    cases outcome with
    | ok a => exact hok a s' h
    | error e => exact herror e s' h)

/-- The outcome of an attempt is a value that meets the postcondition. -/
theorem Safe.attempt (h : Safe env guard post x s) :
    Safe env guard (fun outcome s' => ∃ result, outcome = .ok result ∧ post result s')
      (x.attempt : Program Op Res ε' (Except ε α)) s := by
  induction x generalizing s with
  | ret a => exact ⟨_, rfl, h⟩
  | fail e => exact ⟨_, rfl, h⟩
  | call op next ih => exact ⟨h.1, fun r s' step => ih r (h.2 r s' step)⟩

/-- A computed value is safe where it meets the postcondition. -/
theorem safe_ofExcept {f : ε' → ε} {r : Except ε' α} :
    Safe env guard post (ofExcept f r : Program Op Res ε α) s ↔ post (r.mapError f) s := by
  cases r <;> exact Iff.rfl

/-- The rule for one operation: the guard permits it, and whatever it answers, what follows is safe
from the state it leaves. -/
theorem safe_perform_bind {op : Op} {f : Res op → Program Op Res ε β}
    {post : Except ε β → σ → Prop} :
    Safe env guard post (perform op >>= f) s ↔
      guard op s ∧ ∀ r s', env.step s op r s' → Safe env guard post (f r) s' :=
  Iff.rfl

/-- The rule for a failure in other terms: the postcondition is asked of the failure as it is
reported. -/
theorem Safe.mapError {f : ε → ε'} {post : Except ε' α → σ → Prop}
    (h : Safe env guard (fun outcome s' => post (outcome.mapError f) s') x s) :
    Safe env guard post (x.mapError f) s := by
  refine Safe.bind h.attempt (fun outcome s' hp => ?_) fun e s' hp => ?_
  · obtain ⟨result, hresult, hp⟩ := hp
    cases hresult
    exact safe_ofExcept.mpr hp
  · obtain ⟨_, hresult, _⟩ := hp
    cases hresult

/-- The rule for a failure that is handled: a value passes by the handler, and a failure is handed
to it in the state where it occurred. -/
theorem Safe.handle {onError : ε → Program Op Res ε' α} {mid : Except ε α → σ → Prop}
    {post : Except ε' α → σ → Prop} (hx : Safe env guard mid x s)
    (hok : ∀ a s', mid (.ok a) s' → post (.ok a) s')
    (herror : ∀ e s', mid (.error e) s' → Safe env guard post (onError e) s') :
    Safe env guard post (x.handle onError) s := by
  refine Safe.bind hx.attempt (fun outcome s' hmid => ?_) fun e s' hmid => ?_
  · obtain ⟨result, hresult, hmid⟩ := hmid
    cases hresult
    cases outcome with
    | ok a => exact hok a s' hmid
    | error e => exact herror e s' hmid
  · obtain ⟨_, hresult, _⟩ := hmid
    cases hresult

/-! ### What a return tells

Most specifications promise something of a success only.  `Delivers` is `Safe` with a
postcondition that is silent on failures, and its rules leave the failing branches out, so a
proof follows the straight path of the code. -/

/-- Every operation issued meets `guard`, and `P` holds where the program returns.  Nothing is
asked of a failure. -/
def Delivers (env : Environment Op Res σ) (guard : Op → σ → Prop) (P : α → σ → Prop)
    (x : Program Op Res ε α) (s : σ) : Prop :=
  Safe env guard (fun outcome s' => ∀ a, outcome = .ok a → P a s') x s

section Delivers

variable {R : α → σ → Prop} {Q : β → σ → Prop}

/-- The rule for a sequence: what the first part delivers is what the second begins with. -/
theorem Delivers.bind {f : α → Program Op Res ε β} (hx : Delivers env guard R x s)
    (hf : ∀ a s', R a s' → Delivers env guard Q (f a) s') : Delivers env guard Q (x >>= f) s := by
  refine Safe.bind hx (fun a s' h => hf a s' (h a rfl)) fun e s' _ b hb => ?_
  cases hb

/-- What is delivered may be weakened, and the failures are not affected. -/
theorem Delivers.mono {R' : α → σ → Prop} (hx : Delivers env guard R x s)
    (h : ∀ a s', R a s' → R' a s') : Delivers env guard R' x s :=
  Safe.mono hx fun _ s' hr a ha => h a s' (hr a ha)

/-- A value delivers what holds of it in the state where it stands. -/
theorem delivers_pure {a : α} (h : R a s) :
    Delivers env guard R (pure a : Program Op Res ε α) s := by
  rintro _ ⟨⟩
  exact h

/-- A failure delivers anything, since only the value of a run is spoken of. -/
theorem delivers_throw {e : ε} : Delivers env guard R (throw e : Program Op Res ε α) s := by
  rintro _ ⟨⟩

/-- One operation delivers what every step of it gives, whatever the environment chooses. -/
theorem delivers_perform {op : Op} {R : Res op → σ → Prop} (hguard : guard op s)
    (h : ∀ r s', env.step s op r s' → R r s') :
    Delivers env guard R (perform op : Program Op Res ε (Res op)) s := by
  refine ⟨hguard, fun r s' hstep => ?_⟩
  rintro _ ⟨⟩
  exact h r s' hstep

/-- The rule for a fallible result: only a success has to be accounted for. -/
theorem Delivers.orFail {f : ε' → ε} {x : Program Op Res ε (Except ε' α)}
    (hx : Delivers env guard (fun r s' => ∀ a, r = .ok a → R a s') x s) :
    Delivers env guard R (x.orFail f) s := by
  refine Delivers.bind hx fun r s' h => ?_
  cases r with
  | ok a => exact delivers_pure (h a rfl)
  | error e => exact delivers_throw

/-- The rule for a loop: what one round keeps holds behind the loop. -/
theorem delivers_foldlM {inv : β → σ → Prop} {f : β → α → Program Op Res ε β}
    (hf : ∀ b a s, inv b s → Delivers env guard inv (f b a) s) (as : List α) {b : β} (h : inv b s) :
    Delivers env guard inv (as.foldlM f b) s := by
  induction as generalizing b s with
  | nil => exact delivers_pure h
  | cons a as ih =>
    rw [List.foldlM_cons]
    exact (hf b a s h).bind fun b' s' h' => ih h'

end Delivers

/-! ### Parts that fail only for a reason

Where a failure has to be excused, `Achieves` names the one reason that excuses it.  With
`False` for the reason the program cannot fail; with an event of the world it fails only
where that event happened. -/

/-- `P` where the program returned, and `Q` where it failed. -/
def promised (Q : Prop) (P : α → σ → Prop) : Except ε α → σ → Prop
  | .ok a, s => P a s
  | .error _, _ => Q

/-- Every operation issued meets `guard`, `P` holds where the program returns, and it fails only
if `Q`: with `Q` true a program that `Delivers` does, and with `Q` false one that returns. -/
def Achieves (env : Environment Op Res σ) (guard : Op → σ → Prop) (Q : Prop) (P : α → σ → Prop)
    (x : Program Op Res ε α) (s : σ) : Prop :=
  Safe env guard (promised Q P) x s

section Achieves

variable {Q : Prop} {R : α → σ → Prop} {T : β → σ → Prop}

/-- The rule for a sequence; either part may fail for the reason. -/
theorem Achieves.bind {f : α → Program Op Res ε β} (hx : Achieves env guard Q R x s)
    (hf : ∀ a s', R a s' → Achieves env guard Q T (f a) s') : Achieves env guard Q T (x >>= f) s :=
  Safe.bind hx hf fun _ _ h => h

/-- What is achieved may be weakened, while what makes it a success stays. -/
theorem Achieves.mono {R' : α → σ → Prop} (hx : Achieves env guard Q R x s)
    (h : ∀ a s', R a s' → R' a s') : Achieves env guard Q R' x s :=
  Safe.mono hx fun outcome s' hr => by
    cases outcome with
    | ok a => exact h a s' hr
    | error e => exact hr

/-- A value achieves what holds of it in the state where it stands. -/
theorem achieves_pure {a : α} (h : R a s) :
    Achieves env guard Q R (pure a : Program Op Res ε α) s := h

/-- A failure achieves nothing, where there is a reason for it. -/
theorem achieves_throw {e : ε} (h : Q) :
    Achieves env guard Q R (throw e : Program Op Res ε α) s := h

/-- The guard may be weakened here as well, since it is only a condition on what is issued. -/
theorem Achieves.weaken {guard' : Op → σ → Prop} (h : Achieves env guard Q R x s)
    (hguard : ∀ op s, guard op s → guard' op s) : Achieves env guard' Q R x s :=
  Safe.weaken h hguard

end Achieves

/-! ### Parts that issue only operations of one kind

What a part of a program does not issue it cannot disturb.  `Only` bounds the operations of
a part without regard to the environment, and the frame rule `Only.safe` makes of this bound
and of one fact on a single operation the safety of the part, whatever its branches are. -/

/-- Every operation the program can issue is one of `P`, whatever the operations before it result
in. -/
def Only (P : Op → Prop) : Program Op Res ε α → Prop
  | ret _ => True
  | fail _ => True
  | call op next => P op ∧ ∀ r, Only P (next r)

variable {P : Op → Prop}

/-- A value issues nothing, so every operation it issues is of the kind. -/
theorem only_pure {a : α} : Only P (pure a : Program Op Res ε α) := trivial

/-- A failure issues nothing, so every operation it issues is of the kind. -/
theorem only_throw {e : ε} : Only P (throw e : Program Op Res ε α) := trivial

/-- One operation is the operation it is: the kind is asked of this one alone. -/
theorem only_perform {op : Op} (h : P op) : Only P (perform op : Program Op Res ε (Res op)) :=
  ⟨h, fun _ => trivial⟩

/-- A computed value issues nothing, whether it is a value or a failure. -/
theorem only_ofExcept {f : ε' → ε} {r : Except ε' α} :
    Only P (ofExcept f r : Program Op Res ε α) := by
  cases r <;> trivial

/-- Two parts of one kind are of that kind together. -/
theorem Only.bind {f : α → Program Op Res ε β} (hx : Only P x) (hf : ∀ a, Only P (f a)) :
    Only P (x >>= f) := by
  change Only P (x.bind f)
  induction x with
  | ret a => exact hf a
  | fail e => trivial
  | call op next ih => exact ⟨hx.1, fun r => ih r (hx.2 r)⟩

/-- The kind may be widened, operation by operation. -/
theorem Only.mono {Q : Op → Prop} (hx : Only P x) (h : ∀ op, P op → Q op) : Only Q x := by
  induction x with
  | ret a => trivial
  | fail e => trivial
  | call op next ih => exact ⟨h op hx.1, fun r => ih r (hx.2 r)⟩

/-- A failure that has become a value is issued by the same operations. -/
theorem Only.attempt (hx : Only P x) :
    Only P (x.attempt : Program Op Res ε' (Except ε α)) := by
  induction x with
  | ret a => trivial
  | fail e => trivial
  | call op next ih => exact ⟨hx.1, fun r => ih r (hx.2 r)⟩

/-- A fallible result issues nothing more: its failure becomes one of the program without an
operation. -/
theorem Only.orFail {f : ε' → ε} {x : Program Op Res ε (Except ε' α)} (hx : Only P x) :
    Only P (x.orFail f) :=
  hx.bind fun _ => only_ofExcept

/-- A part of one kind with a handler of that kind. -/
theorem Only.handle {onError : ε → Program Op Res ε' α} (hx : Only P x)
    (hf : ∀ e, Only P (onError e)) : Only P (x.handle onError) :=
  Only.bind hx.attempt fun
    | .ok _ => trivial
    | .error e => hf e

/-- Other terms for a failure issue nothing: the operations are those of the part itself. -/
theorem Only.mapError {f : ε → ε'} (hx : Only P x) : Only P (x.mapError f) :=
  Only.bind hx.attempt fun _ => only_ofExcept

/-- **Frame rule.**  A part that issues only operations of one kind, each of which
meets the guard and moves the state along a transitive relation, moves it along
that relation. -/
theorem Only.safe {R : σ → σ → Prop} (refl : ∀ s, R s s)
    (trans : ∀ s₁ s₂ s₃, R s₁ s₂ → R s₂ s₃ → R s₁ s₃) (hguard : ∀ op s, P op → guard op s)
    (hstep : ∀ s op r s', P op → env.step s op r s' → R s s') (hx : Only P x) :
    Safe env guard (fun _ s' => R s s') x s := by
  induction x generalizing s with
  | ret a => exact refl s
  | fail e => exact refl s
  | call op next ih =>
    refine ⟨hguard op s hx.1, fun r s₁ step => (ih r (hx.2 r)).mono fun _ s₂ h => ?_⟩
    exact trans s s₁ s₂ (hstep s op r s₁ hx.1 step) h

/-! ### Sequences of runs

A function of a source is a sequence of parts, and its runs are runs of the parts in a row.
`bind_assoc` regroups them, and `Returns.issues_bind` and `Only.issues_bind` say in which of
the two parts an operation was issued. -/

/-- Sequences associate, so a part of a function may be taken as a program of its own. -/
theorem bind_assoc {γ : Type} (x : Program Op Res ε α) (f : α → Program Op Res ε β)
    (g : β → Program Op Res ε γ) : (x >>= f) >>= g = x >>= fun a => f a >>= g := by
  change (x.bind f).bind g = x.bind fun a => (f a).bind g
  induction x with
  | ret a => rfl
  | fail e => rfl
  | call op next ih => exact congrArg (call op) (funext fun r => ih r)

/-- A sequence that ends by returning what it got is its first part. -/
theorem bind_pure (x : Program Op Res ε α) : (x >>= fun a => pure a) = x := by
  change x.bind ret = x
  induction x with
  | ret a => rfl
  | fail e => rfl
  | call op next ih => exact congrArg (call op) (funext fun r => ih r)

/-- What the second part issues is issued by the sequence. -/
theorem Returns.issues_bind {f : α → Program Op Res ε β} {a : α} {op : Op} {s₁ : σ}
    (hx : Returns env x s (.ok a) s₁) (hf : Issues env (f a) s₁ op s') :
    Issues env (x >>= f) s op s' := by
  change Issues env (x.bind f) s op s'
  generalize hr : Except.ok a = result at hx
  induction hx with
  | ret => cases hr; exact hf
  | fail => cases hr
  | call step _ ih => exact .later step (ih hf hr)

/-- Every run is safe where nothing is asked of it. -/
theorem safe_true : Safe env (fun _ _ => True) (fun _ _ => True) x s := by
  induction x generalizing s with
  | ret a => trivial
  | fail e => trivial
  | call op next ih => exact ⟨trivial, fun r _ _ => ih r⟩

/-- An operation of another kind is not issued in any run: this is what a kind is used for. -/
theorem Only.not_issues {op : Op} (hx : Only P x) (hop : ¬P op) : ¬Issues env x s op s' := by
  intro run
  induction run with
  | here => exact hop hx.1
  | later _ _ ih => exact ih (hx.2 _) hop

/-- An operation that a part does not issue is issued by what follows it. -/
theorem Only.issues_bind {f : α → Program Op Res ε β} {op : Op} (hx : Only P x) (hop : ¬P op)
    (run : Issues env (x >>= f) s op s') :
    ∃ a s₁, Returns env x s (.ok a) s₁ ∧ Issues env (f a) s₁ op s' := by
  change Issues env (x.bind f) s op s' at run
  induction x generalizing s with
  | ret a => exact ⟨a, s, .ret, run⟩
  | fail e => cases run
  | call op' next ih =>
    cases run with
    | here => exact absurd hx.1 hop
    | later step rest =>
      obtain ⟨a, s₁, hret, hissues⟩ := ih _ (hx.2 _) rest
      exact ⟨a, s₁, .call step hret, hissues⟩

/-- Every operation is an operation: the trivial kind, to which any other may be widened. -/
theorem only_true : Only (fun _ => True) x := by
  induction x with
  | ret a => trivial
  | fail e => trivial
  | call op next ih => exact ⟨trivial, ih⟩

/-! ### Worlds that allow less

An environment that allows fewer steps has fewer runs.  So what is safe stays safe there
(`Safe.restrict`), a run of the smaller world is one of the larger, and
`Safe.exists_returns` gives a run where every permitted operation can have some result:
safety alone would hold of a program without any. -/

/-- A run is one of every environment that allows its steps. -/
theorem Returns.weaken {env' : Environment Op Res σ}
    (h : ∀ s op r s', env.step s op r s' → env'.step s op r s') {outcome : Except ε α}
    (run : Returns env x s outcome s') : Returns env' x s outcome s' := by
  induction run with
  | ret => exact .ret
  | fail => exact .fail
  | call step _ ih => exact .call (h _ _ _ _ step) ih

/-- A state that is visited in one environment is visited in every environment that allows its
steps. -/
theorem Visits.weaken {env' : Environment Op Res σ}
    (h : ∀ s op r s', env.step s op r s' → env'.step s op r s') (run : Visits env x s s') :
    Visits env' x s s' := by
  induction run with
  | here => exact .here
  | later step _ ih => exact .later (h _ _ _ _ step) ih

/-- What is safe in an environment is safe in every one that allows less. -/
theorem Safe.restrict {env' : Environment Op Res σ}
    (h : ∀ s op r s', env'.step s op r s' → env.step s op r s') (hsafe : Safe env guard post x s) :
    Safe env' guard post x s := by
  induction x generalizing s with
  | ret a => exact hsafe
  | fail e => exact hsafe
  | call op next ih => exact ⟨hsafe.1, fun r s' step => ih r (hsafe.2 r s' (h s op r s' step))⟩

/-- A safe program has a run where every guarded operation can have a result. -/
theorem Safe.exists_returns (live : ∀ op s, guard op s → ∃ r s', env.step s op r s')
    (h : Safe env guard post x s) : ∃ outcome s', Returns env x s outcome s' := by
  induction x generalizing s with
  | ret a => exact ⟨_, s, .ret⟩
  | fail e => exact ⟨_, s, .fail⟩
  | call op next ih =>
    obtain ⟨r, s₁, step⟩ := live op s h.1
    obtain ⟨outcome, s', run⟩ := ih r (h.2 r s₁ step)
    exact ⟨outcome, s', .call step run⟩

/-! ### Worlds whose answers are known

With one answer for each operation a program is a function, which `evaluate` computes.  The
simp lemmas take it through the constructors, so a run on closed values is an evaluation;
`Only.exists_returns` makes of the answers of a kind of operations a run in an environment
that can give them. -/

/-- The outcome of a program whose every operation has the given answer.  It computes, so a run on
closed values can be decided. -/
def evaluate (answer : (op : Op) → Res op) : Program Op Res ε α → Except ε α
  | ret a => .ok a
  | fail e => .error e
  | call op next => evaluate answer (next (answer op))

variable {answer : (op : Op) → Res op} {a : α}

/-- A value comes to itself, without an answer being asked for. -/
@[simp] theorem evaluate_pure : evaluate answer (pure a : Program Op Res ε α) = .ok a := rfl

/-- A failure comes to itself, without an answer being asked for. -/
@[simp] theorem evaluate_throw {e : ε} :
    evaluate answer (throw e : Program Op Res ε α) = .error e := rfl

/-- A sequence comes to the sequence of what its parts come to. -/
theorem evaluate_bind {f : α → Program Op Res ε β} :
    evaluate answer (x >>= f) = evaluate answer x >>= fun a => evaluate answer (f a) := by
  change evaluate answer (x.bind f) = _
  induction x with
  | ret a => rfl
  | fail e => rfl
  | call op next ih => exact ih (answer op)

/-- A sequence that succeeds, taken apart: both parts succeed, the second from the value of the
first. -/
theorem evaluate_bind_ok {f : α → Program Op Res ε β} {b : β} :
    evaluate answer (x >>= f) = .ok b ↔
      ∃ a, evaluate answer x = .ok a ∧ evaluate answer (f a) = .ok b := by
  rw [evaluate_bind]
  cases evaluate answer x with
  | ok a => exact ⟨fun h => ⟨a, rfl, h⟩, fun ⟨_, ha, h⟩ => by cases ha; exact h⟩
  | error e => exact ⟨nofun, nofun⟩

/-- A loop comes to the loop over what its rounds come to. -/
theorem evaluate_foldlM {f : β → α → Program Op Res ε β} (as : List α) (b : β) :
    evaluate answer (as.foldlM f b) = as.foldlM (fun b a => evaluate answer (f b a)) b := by
  induction as generalizing b with
  | nil => rfl
  | cons a as ih =>
    rw [List.foldlM_cons, List.foldlM_cons, evaluate_bind]
    exact congrArg (evaluate answer (f b a) >>= ·) (funext ih)

/-- One operation comes to its answer, which the same operation has at every moment. -/
@[simp] theorem evaluate_perform {op : Op} :
    evaluate answer (perform op : Program Op Res ε (Res op)) = .ok (answer op) := rfl

/-- A computed value comes to itself where it is one. -/
theorem evaluate_ofExcept_ok {f : ε' → ε} {r : Except ε' α} :
    evaluate answer (ofExcept f r : Program Op Res ε α) = .ok a ↔ r = .ok a := by
  cases r with
  | ok b => exact ⟨fun h => by cases h; rfl, fun h => by cases h; rfl⟩
  | error e => exact ⟨nofun, nofun⟩

/-- A fallible result succeeds where it is a success, and fails the program otherwise. -/
theorem evaluate_orFail_ok {f : ε' → ε} {y : Program Op Res ε (Except ε' α)} :
    evaluate answer (y.orFail f) = .ok a ↔ evaluate answer y = .ok (.ok a) := by
  change evaluate answer (y >>= ofExcept f) = .ok a ↔ _
  rw [evaluate_bind_ok]
  constructor
  · rintro ⟨r, hy, hr⟩
    rwa [evaluate_ofExcept_ok.mp hr] at hy
  · exact fun hy => ⟨_, hy, rfl⟩

/-- An attempt comes to the outcome as a value, and so never fails. -/
@[simp] theorem evaluate_attempt :
    evaluate answer (x.attempt : Program Op Res ε' (Except ε α)) = .ok (evaluate answer x) := by
  induction x with
  | ret a => rfl
  | fail e => rfl
  | call op next ih => exact ih (answer op)

/-- Other terms for a failure change no success. -/
theorem evaluate_mapError_ok {f : ε → ε'} :
    evaluate answer (x.mapError f) = .ok a ↔ evaluate answer x = .ok a := by
  change evaluate answer (x.attempt >>= ofExcept f) = .ok a ↔ _
  rw [evaluate_bind, evaluate_attempt]
  exact evaluate_ofExcept_ok

/-- Answers that agree on what a program issues give it one outcome. -/
theorem Only.evaluate_congr {answer' : (op : Op) → Res op} (hx : Only P x)
    (h : ∀ op, P op → answer op = answer' op) : evaluate answer x = evaluate answer' x := by
  induction x with
  | ret a => rfl
  | fail e => rfl
  | call op next ih =>
    rw [evaluate, evaluate, ← h op hx.1]
    exact ih _ (hx.2 _)

/-- **The outcome of a run** where the answers are known. -/
theorem Only.evaluate_of_returns
    (known : ∀ s op r s', P op → env.step s op r s' → r = answer op) (hx : Only P x)
    {outcome : Except ε α} (run : Returns env x s outcome s') : outcome = evaluate answer x := by
  induction run with
  | ret => rfl
  | fail => rfl
  | call step _ ih =>
    cases known _ _ _ _ hx.1 step
    exact ih (hx.2 _)

/-- There is a run where every operation can have its answer in the states of an invariant, and
leaves such a state. -/
theorem Only.exists_returns_within (inv : σ → Prop)
    (live : ∀ s op, P op → inv s → ∃ s', env.step s op (answer op) s' ∧ inv s')
    (hx : Only P x) (hs : inv s) : ∃ s', Returns env x s (evaluate answer x) s' ∧ inv s' := by
  induction x generalizing s with
  | ret a => exact ⟨s, .ret, hs⟩
  | fail e => exact ⟨s, .fail, hs⟩
  | call op next ih =>
    obtain ⟨s₁, step, hs₁⟩ := live s op hx.1 hs
    obtain ⟨s', run, hs'⟩ := ih _ (hx.2 _) hs₁
    exact ⟨s', .call step run, hs'⟩

/-- There is a run where every operation can have its answer. -/
theorem Only.exists_returns (live : ∀ s op, P op → ∃ s', env.step s op (answer op) s')
    (hx : Only P x) (s : σ) : ∃ s', Returns env x s (evaluate answer x) s' := by
  obtain ⟨s', run, -⟩ := hx.exists_returns_within (fun _ => True)
    (fun s op hop _ => (live s op hop).imp fun _ step => ⟨step, trivial⟩) (s := s) trivial
  exact ⟨s', run⟩

/-! ### Worlds that answer by their state

Here the answer depends on the state, and the state changes with the operation.  `execute`
computes the one run there is, and `returns_execute` says that it is a run of every
environment that may answer so. -/

/-- The run of a program in a world whose answers follow from its state.  It computes, so a run on
closed values can be decided. -/
def execute (respond : σ → (op : Op) → Res op × σ) : Program Op Res ε α → σ → Except ε α × σ
  | ret a, s => (.ok a, s)
  | fail e, s => (.error e, s)
  | call op next, s => execute respond (next (respond s op).1) (respond s op).2

/-- It is a run of every environment that may answer so. -/
theorem returns_execute {respond : σ → (op : Op) → Res op × σ}
    (h : ∀ s op, env.step s op (respond s op).1 (respond s op).2) (x : Program Op Res ε α)
    (s : σ) : Returns env x s (execute respond x s).1 (execute respond x s).2 := by
  induction x generalizing s with
  | ret a => exact .ret
  | fail e => exact .fail
  | call op next ih => exact .call (h s op) (ih _ _)

variable {respond : σ → (op : Op) → Res op × σ}

/-- A value leaves the world as it is, since no operation is executed. -/
@[simp] theorem execute_pure {a : α} :
    execute respond (pure a : Program Op Res ε α) s = (.ok a, s) := rfl

/-- A failure leaves the world as it is; what came before it is not undone. -/
@[simp] theorem execute_throw {e : ε} :
    execute respond (throw e : Program Op Res ε α) s = (.error e, s) := rfl

/-- One operation has the answer of the world and leaves the world behind it. -/
@[simp] theorem execute_perform {op : Op} :
    execute respond (perform op : Program Op Res ε (Res op)) s =
      (.ok (respond s op).1, (respond s op).2) := rfl

/-- What follows a part that returned runs from where the part left the world. -/
theorem execute_bind_ok {f : α → Program Op Res ε β} {a : α}
    (hx : execute respond x s = (.ok a, s')) :
    execute respond (x >>= f) s = execute respond (f a) s' := by
  change execute respond (x.bind f) s = _
  induction x generalizing s with
  | ret b =>
    obtain ⟨h₁, h₂⟩ := Prod.mk.inj hx
    cases h₁
    rw [← h₂]
    rfl
  | fail e => cases (Prod.mk.inj hx).1
  | call op next ih => exact ih _ hx

/-- Nothing follows a part that failed: the world stays as that part left it. -/
theorem execute_bind_error {f : α → Program Op Res ε β} {e : ε}
    (hx : execute respond x s = (.error e, s')) :
    execute respond (x >>= f) s = (.error e, s') := by
  change execute respond (x.bind f) s = _
  induction x generalizing s with
  | ret b => cases (Prod.mk.inj hx).1
  | fail e' =>
    obtain ⟨h₁, h₂⟩ := Prod.mk.inj hx
    cases h₁
    rw [← h₂]
    rfl
  | call op next ih => exact ih _ hx

end Program
end Lib
end ThinWorkspace
