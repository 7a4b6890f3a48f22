import Mathlib

/-!
# Runs of a deterministic step function

A system is a step function `step : σ → ℓ → σ` on states and labels, where a label
whose guard fails leaves the state as it is. `runFrom` folds the labels of a run,
`Along` asks a condition of every step of a run, `Throughout` a property of every
state it reaches.

`invariant_runFrom` is induction over a run, `throughout_of_along` the same for every
state on the way, and `throughout_iff_along` the exact form : when a property survives
a step if and only if the step meets a condition, a run keeps the property throughout
if and only if all of its steps meet the condition. `length_add_le_of_along` bounds a run
by a measure that its steps lower, and `exists_runFrom_of_simulation` is forward simulation,
with a run for every step.
-/

namespace Choreography

variable {σ ℓ : Type*} {step : σ → ℓ → σ}

/-- The state after the labels `ls`, from `s`. -/
def runFrom (step : σ → ℓ → σ) (s : σ) (ls : List ℓ) : σ := ls.foldl step s

@[simp] theorem runFrom_nil (step : σ → ℓ → σ) (s : σ) : runFrom step s [] = s := rfl

@[simp] theorem runFrom_cons (step : σ → ℓ → σ) (s : σ) (l : ℓ) (ls : List ℓ) :
    runFrom step s (l :: ls) = runFrom step (step s l) ls := rfl

theorem runFrom_append (step : σ → ℓ → σ) (s : σ) (ls ls' : List ℓ) :
    runFrom step s (ls ++ ls') = runFrom step (runFrom step s ls) ls' :=
  List.foldl_append

/-- Every step of the run `ls` from `s` satisfies `P`, a condition on the state before
the step and the label. -/
def Along (step : σ → ℓ → σ) (P : σ → ℓ → Prop) : σ → List ℓ → Prop
  | _, [] => True
  | s, l :: ls => P s l ∧ Along step P (step s l) ls

instance decidableAlong {P : σ → ℓ → Prop} [∀ s l, Decidable (P s l)] :
    (s : σ) → (ls : List ℓ) → Decidable (Along step P s ls)
  | _, [] => inferInstanceAs (Decidable True)
  | s, l :: ls =>
    @instDecidableAnd (P s l) (Along step P (step s l) ls) _ (decidableAlong (step s l) ls)

theorem along_append {P : σ → ℓ → Prop} {s : σ} {ls ls' : List ℓ} :
    Along step P s (ls ++ ls') ↔ Along step P s ls ∧ Along step P (runFrom step s ls) ls' := by
  induction ls generalizing s with
  | nil => simp [Along]
  | cons l ls ih => simp [Along, ih, and_assoc]

theorem Along.imp {P P' : σ → ℓ → Prop} (himp : ∀ s l, P s l → P' s l) :
    ∀ {s : σ} {ls : List ℓ}, Along step P s ls → Along step P' s ls
  | _, [], _ => trivial
  | s, l :: _, ⟨hP, h⟩ => ⟨himp s l hP, h.imp himp⟩

/-- Every state of the run `ls` from `s`, the first and the last included, satisfies
`Q`. -/
def Throughout (step : σ → ℓ → σ) (Q : σ → Prop) (s : σ) (ls : List ℓ) : Prop :=
  ∀ pre, List.IsPrefix pre ls → Q (runFrom step s pre)

theorem throughout_nil {Q : σ → Prop} {s : σ} : Throughout step Q s [] ↔ Q s := by
  constructor
  · intro h
    exact h [] (List.prefix_refl [])
  · intro h pre hpre
    rw [List.prefix_nil.mp hpre]
    exact h

theorem throughout_cons {Q : σ → Prop} {s : σ} {l : ℓ} {ls : List ℓ} :
    Throughout step Q s (l :: ls) ↔ Q s ∧ Throughout step Q (step s l) ls := by
  constructor
  · intro h
    refine ⟨h [] (List.nil_prefix), fun pre hpre => ?_⟩
    exact h (l :: pre) (List.cons_prefix_cons.mpr ⟨rfl, hpre⟩)
  · rintro ⟨hs, h⟩ pre hpre
    rcases List.prefix_cons_iff.mp hpre with rfl | ⟨pre', rfl, hpre'⟩
    · exact hs
    · exact h pre' hpre'

/-- A property of the first state that every step keeps holds of the last. -/
theorem invariant_runFrom {I : σ → Prop} (hstep : ∀ s l, I s → I (step s l)) :
    ∀ {s : σ} (ls : List ℓ), I s → I (runFrom step s ls)
  | _, [], hs => hs
  | s, l :: ls, hs => invariant_runFrom hstep ls (hstep s l hs)

/-- A property that every step meeting `P` keeps holds throughout a run whose steps all
meet `P`. -/
theorem throughout_of_along {I : σ → Prop} {P : σ → ℓ → Prop}
    (hstep : ∀ s l, I s → P s l → I (step s l)) :
    ∀ {s : σ} {ls : List ℓ}, I s → Along step P s ls → Throughout step I s ls
  | _, [], hs, _ => throughout_nil.mpr hs
  | s, l :: _, hs, ⟨hP, h⟩ =>
    throughout_cons.mpr ⟨hs, throughout_of_along hstep (hstep s l hs hP) h⟩

theorem Throughout.last {Q : σ → Prop} {s : σ} {ls : List ℓ} (h : Throughout step Q s ls) :
    Q (runFrom step s ls) :=
  h ls (List.prefix_refl ls)

theorem Throughout.mono {Q Q' : σ → Prop} (hQ : ∀ s, Q s → Q' s) {s : σ} {ls : List ℓ}
    (h : Throughout step Q s ls) : Throughout step Q' s ls :=
  fun pre hpre => hQ _ (h pre hpre)

/-- When, under the invariant `I`, a step keeps `Q` exactly if it meets `P`, a run keeps
`Q` throughout exactly if all its steps meet `P`. -/
theorem throughout_iff_along {I Q : σ → Prop} {P : σ → ℓ → Prop}
    (hI : ∀ s l, I s → I (step s l)) (hQ : ∀ s l, I s → Q s → (Q (step s l) ↔ P s l)) :
    ∀ {s : σ} {ls : List ℓ}, I s → Q s → (Throughout step Q s ls ↔ Along step P s ls)
  | s, [], _, hs => by
    rw [throughout_nil]
    exact ⟨fun _ => trivial, fun _ => hs⟩
  | s, l :: ls, hi, hs => by
    rw [throughout_cons]
    constructor
    · rintro ⟨-, h⟩
      have hl := h [] List.nil_prefix
      exact ⟨(hQ s l hi hs).mp hl, (throughout_iff_along hI hQ (hI s l hi) hl).mp h⟩
    · rintro ⟨hP, h⟩
      have hl := (hQ s l hi hs).mpr hP
      exact ⟨hs, (throughout_iff_along hI hQ (hI s l hi) hl).mpr h⟩

/-- When, under an invariant that lasts as long as the steps meet `P`, a step meets `A` and
keeps `Q` exactly if it meets `P`, a run does both throughout exactly if all its steps meet
`P`. The steps are among those that `G` admits. -/
theorem throughout_and_along_iff {I Q : σ → Prop} {G A P : σ → ℓ → Prop}
    (hgood : ∀ s l, I s → Q s → G s l → P s l → I (step s l) ∧ Q (step s l) ∧ A s l)
    (hbad : ∀ s l, I s → Q s → G s l → Q (step s l) → A s l → P s l) :
    ∀ {s : σ} {ls : List ℓ}, I s → Q s → Along step G s ls →
      (Throughout step Q s ls ∧ Along step A s ls ↔ Along step P s ls)
  | s, [], _, hs, _ => by
    rw [throughout_nil]
    exact ⟨fun _ => trivial, fun _ => ⟨hs, trivial⟩⟩
  | s, l :: ls, hi, hs, ⟨hg, hgs⟩ => by
    rw [throughout_cons]
    constructor
    · rintro ⟨⟨-, h⟩, ha, has⟩
      have hl := h [] List.nil_prefix
      have hp := hbad s l hi hs hg hl ha
      obtain ⟨hi', -, -⟩ := hgood s l hi hs hg hp
      exact ⟨hp, (throughout_and_along_iff hgood hbad hi' hl hgs).mp ⟨h, has⟩⟩
    · rintro ⟨hp, hps⟩
      obtain ⟨hi', hs', ha⟩ := hgood s l hi hs hg hp
      obtain ⟨h, has⟩ := (throughout_and_along_iff hgood hbad hi' hs' hgs).mpr hps
      exact ⟨⟨hs, h⟩, ha, has⟩

/-- Under an invariant, a run whose steps all lower a measure is no longer than the measure
at its start. -/
theorem length_add_le_of_along {I : σ → Prop} {P : σ → ℓ → Prop} (measure : σ → ℕ)
    (hstep : ∀ s l, I s → P s l → I (step s l) ∧ measure (step s l) < measure s) :
    ∀ {s : σ} {ls : List ℓ}, I s → Along step P s ls →
      ls.length + measure (runFrom step s ls) ≤ measure s
  | s, [], _, _ => by simp
  | s, l :: ls, hi, ⟨hP, h⟩ => by
    obtain ⟨hi', hlt⟩ := hstep s l hi hP
    have hrest := length_add_le_of_along measure hstep hi' h
    rw [List.length_cons, runFrom_cons]
    omega

/-- A simulation that answers every step with a run answers every run with one. `P` is a
property of the answers that composes. -/
theorem exists_runFrom_of_simulation {τ κ : Type*} {step' : τ → κ → τ} {R : σ → τ → Prop}
    {P : τ → List κ → Prop} (hnil : ∀ t, P t [])
    (happend : ∀ t ks ks', P t ks → P (runFrom step' t ks) ks' → P t (ks ++ ks'))
    (hstep : ∀ s t l, R s t → ∃ ks, P t ks ∧ R (step s l) (runFrom step' t ks)) :
    ∀ {s : σ} {t : τ} (ls : List ℓ), R s t →
      ∃ ks, P t ks ∧ R (runFrom step s ls) (runFrom step' t ks)
  | _, t, [], h => ⟨[], hnil t, h⟩
  | s, t, l :: ls, h => by
    obtain ⟨ks, hP, h⟩ := hstep s t l h
    obtain ⟨ks', hP', h⟩ := exists_runFrom_of_simulation hnil happend hstep ls h
    refine ⟨ks ++ ks', happend t ks ks' hP hP', ?_⟩
    rw [runFrom_append]
    exact h

end Choreography
