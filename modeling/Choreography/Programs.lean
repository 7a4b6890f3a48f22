import Mathlib

/-!
# Programs that make requests

A program returns a value, or makes a request and goes on with the answer. What answers
is left open : a program can be run against a handler that passes a state (`run`), or be
one of several processes in a world that answers one request at a time.

`Reaches p τ p'` says that `p`, after the exchanges `τ`, is `p'`. A world that keeps the
exchanges of each process knows, with `Reaches`, where the process is; `reaches_bind`
takes a sequence of two programs apart.
-/

namespace Choreography

/-- A program that makes requests `q : Q`, answered in `R q`, and returns an `α`. -/
inductive Prog {Q : Type} (R : Q → Type) (α : Type)
  | ret (a : α)
  | call (q : Q) (k : R q → Prog R α)

namespace Prog

variable {Q : Type} {R : Q → Type} {α β : Type}

def bind : Prog R α → (α → Prog R β) → Prog R β
  | ret a, f => f a
  | call q k, f => call q fun r => (k r).bind f

instance : Monad (Prog R) where
  pure := ret
  bind := bind

/-- One request. -/
def request (q : Q) : Prog R (R q) := call q ret

/-- The request that a program makes next. -/
def next : Prog R α → Option Q
  | ret _ => none
  | call q _ => some q

@[simp] theorem call_bind (q : Q) (k : R q → Prog R α) (f : α → Prog R β) :
    call q k >>= f = call q fun r => k r >>= f := rfl

@[simp] theorem request_bind (q : Q) (f : R q → Prog R β) : request q >>= f = call q f := rfl

/-! ## Runs against a handler -/

/-- Run a program to its end against a handler that passes a state. -/
def run {σ : Type} (h : (q : Q) → σ → R q × σ) : Prog R α → σ → α × σ
  | ret a, s => (a, s)
  | call q k, s => run h (k (h q s).1) (h q s).2

theorem run_bind {σ : Type} (h : (q : Q) → σ → R q × σ) (p : Prog R α) (f : α → Prog R β)
    (s : σ) : run h (p >>= f) s = run h (f (run h p s).1) (run h p s).2 := by
  induction p generalizing s with
  | ret a => rfl
  | call q k ih => exact ih (h q s).1 (h q s).2

/-! ## Exchanges -/

/-- The requests that a program has made, with their answers. -/
abbrev Trace (R : Q → Type) := List ((q : Q) × R q)

/-- After the exchanges, what is left of the program. -/
inductive Reaches : Prog R α → Trace R → Prog R α → Prop
  | refl (p : Prog R α) : Reaches p [] p
  | step {q : Q} {k : R q → Prog R α} {r : R q} {τ : Trace R} {p : Prog R α}
      (h : Reaches (k r) τ p) : Reaches (call q k) (⟨q, r⟩ :: τ) p

theorem reaches_ret {a : α} {τ : Trace R} {p : Prog R α} :
    Reaches (ret a) τ p ↔ τ = [] ∧ p = ret a := by
  constructor
  · rintro ⟨⟩
    exact ⟨rfl, rfl⟩
  · rintro ⟨rfl, rfl⟩
    exact .refl _

theorem reaches_call {q : Q} {k : R q → Prog R α} {τ : Trace R} {p : Prog R α} :
    Reaches (call q k) τ p ↔
      (τ = [] ∧ p = call q k) ∨ ∃ r τ', τ = ⟨q, r⟩ :: τ' ∧ Reaches (k r) τ' p := by
  constructor
  · rintro (_ | h)
    · exact Or.inl ⟨rfl, rfl⟩
    · exact Or.inr ⟨_, _, rfl, h⟩
  · rintro (⟨rfl, rfl⟩ | ⟨r, τ', rfl, h⟩)
    · exact .refl _
    · exact .step h

theorem Reaches.trans {p p' p'' : Prog R α} {τ τ' : Trace R} (h : Reaches p τ p')
    (h' : Reaches p' τ' p'') : Reaches p (τ ++ τ') p'' := by
  induction h with
  | refl p => exact h'
  | step _ ih => exact .step (ih h')

/-- The next exchange. -/
theorem Reaches.snoc {p : Prog R α} {τ : Trace R} {q : Q} {k : R q → Prog R α}
    (h : Reaches p τ (call q k)) (r : R q) : Reaches p (τ ++ [⟨q, r⟩]) (k r) :=
  h.trans (.step (.refl _))

/-- A program in front of another is on its way, or has returned and the other is. -/
theorem reaches_bind {p : Prog R α} {f : α → Prog R β} {τ : Trace R} {p' : Prog R β}
    (h : Reaches (p >>= f) τ p') :
    (∃ q k, Reaches p τ (call q k) ∧ p' = call q k >>= f) ∨
      ∃ a τ₁ τ₂, τ = τ₁ ++ τ₂ ∧ Reaches p τ₁ (ret a) ∧ Reaches (f a) τ₂ p' := by
  induction p generalizing τ with
  | ret a => exact Or.inr ⟨a, [], τ, rfl, .refl _, h⟩
  | call q k ih =>
    rw [call_bind, reaches_call] at h
    obtain ⟨rfl, rfl⟩ | ⟨r, τ', rfl, h⟩ := h
    · exact Or.inl ⟨q, k, .refl _, rfl⟩
    · obtain ⟨q', k', hp, rfl⟩ | ⟨a, τ₁, τ₂, rfl, hp, hf⟩ := ih r h
      · exact Or.inl ⟨q', k', .step hp, rfl⟩
      · exact Or.inr ⟨a, ⟨q, r⟩ :: τ₁, τ₂, rfl, .step hp, hf⟩

end Prog

end Choreography
