import Choreography.Programs
import Choreography.Runs

/-!
# Transactions

Programs that run in transactions over a store, one statement at a time. A transaction
keeps its writes to itself until it commits, and a statement waits for the transactions
whose writes it conflicts with. An `Engine` is what a statement answers, what a commit does
and what a statement waits for, with what makes transactions independent :

* the writes of two open transactions are apart, since a statement that would make them
  meet waits;
* a commit does not change what a transaction apart from it was answered, if the statement
  was `Firm`; one that is not has written nothing;
* writes that are `Guarded` are noticed by nobody who does not wait for them.

`step` is the interleaving of any number of transactions, and `step_cases` what a step can do.
`Coherent` is what every state keeps : the writes of the open transactions are apart, and fit
the store.
-/

set_option linter.unusedSectionVars false

namespace Choreography

open Prog

variable {Q : Type} {R : Q → Type} {σ δ β ι : Type}

/-- A store `σ` with the statements `Q`, and the writes `δ` of a transaction. -/
structure Engine (R : Q → Type) (σ δ : Type) where
  start : δ
  answer : σ → δ → (q : Q) → R q × δ
  commit : σ → δ → σ
  /-- The statement of a transaction with the writes `d` waits for an open one with `d'`. -/
  waits : (s : σ) → (d d' : δ) → Q → Bool
  /-- The writes of two open transactions do not meet. -/
  Apart : δ → δ → Prop
  /-- The writes were made over this store, or one that has grown to it. -/
  Fits : σ → δ → Prop
  /-- What others commit does not change the answer. -/
  Firm : σ → δ → Q → Prop
  /-- Nobody who does not wait for the writes would notice that they are committed. -/
  Guarded : δ → Prop
  apart_start : ∀ d, Apart start d
  apart_symm : ∀ {d d'}, Apart d d' → Apart d' d
  /-- Writes grow. -/
  apart_of_answer : ∀ {s d q d'}, Apart (answer s d q).2 d' → Apart d d'
  apart_answer : ∀ {s d q d'}, Apart d d' → waits s d d' q = false → Apart (answer s d q).2 d'
  fits_start : ∀ s, Fits s start
  fits_answer : ∀ {s d q}, Fits s d → Fits s (answer s d q).2
  fits_commit : ∀ {s d d'}, Fits s d → Fits s d' → Apart d d' → Fits (commit s d') d
  answer_commit : ∀ {s d q d'}, Firm s d q → Fits s d' → Apart (answer s d q).2 d' →
    answer (commit s d') d q = answer s d q ∧ Firm (commit s d') d q
  answer_of_not_firm : ∀ {s d q}, ¬Firm s d q → (answer s d q).2 = d
  commit_comm : ∀ {s d d'}, Guarded d → Apart d d' →
    commit (commit s d) d' = commit (commit s d') d
  answer_guarded : ∀ {s d q d'}, Guarded d' → Fits s d' → waits s d d' q = false →
    answer (commit s d') d q = answer s d q ∧
      ∀ d'', waits (commit s d') d d'' q = waits s d d'' q

namespace Engine

variable (E : Engine R σ δ)

/-! ## A transaction alone -/

/-- The statements of a program over a store that does not change, all of them firm. -/
inductive Runs (s : σ) : Prog R β → δ → Prog R β → δ → Prop
  | refl (p : Prog R β) (d : δ) : Runs s p d p d
  | step {q : Q} {k : R q → Prog R β} {d : δ} {p : Prog R β} {d' : δ} (hfirm : E.Firm s d q)
      (h : Runs s (k (E.answer s d q).1) (E.answer s d q).2 p d') : Runs s (call q k) d p d'

variable {E}

theorem runs_ret {s : σ} {b : β} {d : δ} {p : Prog R β} {d' : δ} :
    E.Runs s (ret b) d p d' ↔ p = ret b ∧ d' = d := by
  constructor
  · rintro ⟨⟩
    exact ⟨rfl, rfl⟩
  · rintro ⟨rfl, rfl⟩
    exact .refl _ _

theorem runs_call {s : σ} {q : Q} {k : R q → Prog R β} {d : δ} {p : Prog R β} {d' : δ} :
    E.Runs s (call q k) d p d' ↔ (p = call q k ∧ d' = d) ∨
      E.Firm s d q ∧ E.Runs s (k (E.answer s d q).1) (E.answer s d q).2 p d' := by
  constructor
  · rintro (_ | ⟨hfirm, h⟩)
    · exact Or.inl ⟨rfl, rfl⟩
    · exact Or.inr ⟨hfirm, h⟩
  · rintro (⟨rfl, rfl⟩ | ⟨hfirm, h⟩)
    · exact .refl _ _
    · exact .step hfirm h

namespace Runs

variable {s : σ} {p p' : Prog R β} {d d' x : δ}

theorem snoc {q : Q} {k : R q → Prog R β} (h : E.Runs s p d (call q k) d')
    (hfirm : E.Firm s d' q) : E.Runs s p d (k (E.answer s d' q).1) (E.answer s d' q).2 := by
  generalize hp : call q k = p' at h
  induction h with
  | refl p d =>
    subst hp
    exact .step hfirm (.refl _ _)
  | step hfirm' _ ih => exact .step hfirm' (ih hfirm hp)

/-- What is apart from the writes of a transaction was so all the time. -/
theorem apart (h : E.Runs s p d p' d') (hx : E.Apart d' x) : E.Apart d x := by
  induction h with
  | refl p d => exact hx
  | step _ _ ih => exact E.apart_of_answer (ih hx)

/-- Another transaction that commits does not change what this one was answered. -/
theorem commit (h : E.Runs s p d p' d') (hfits : E.Fits s x) (hx : E.Apart d' x) :
    E.Runs (E.commit s x) p d p' d' := by
  induction h with
  | refl p d => exact .refl p d
  | step hfirm hrest ih =>
    obtain ⟨hanswer, hfirm'⟩ := E.answer_commit hfirm hfits (hrest.apart hx)
    refine .step hfirm' ?_
    rw [hanswer]
    exact ih hx

theorem run (h : E.Runs s p d p' d') :
    Prog.run (fun q d => E.answer s d q) p d = Prog.run (fun q d => E.answer s d q) p' d' := by
  induction h with
  | refl p d => rfl
  | step _ _ ih => exact ih

end Runs

variable (E) (commits : β → Bool)

/-- The result of a transaction that runs alone, and the store after it. -/
def exec (p : Prog R β) (s : σ) : β × σ :=
  let last := Prog.run (fun q d => E.answer s d q) p E.start
  (last.1, if commits last.1 then E.commit s last.2 else s)

/-- A statement that is not firm is the last of the program, and what is committed then is
guarded. -/
def Settled (p : Prog R β) : Prop :=
  ∀ s q k d, E.Runs s p E.start (call q k) d → ¬E.Firm s d q →
    ∃ b, k (E.answer s d q).1 = ret b ∧ (commits b = true → E.Guarded d)

end Engine

/-- The store after some calls, one after the other. -/
def inTurn (exec : ι → σ → β × σ) (s : σ) (order : List ι) : σ :=
  order.foldl (fun s i => (exec i s).2) s

theorem inTurn_concat (exec : ι → σ → β × σ) (s : σ) (order : List ι) (i : ι) :
    inTurn exec s (order ++ [i]) = (exec i (inTurn exec s order)).2 :=
  List.foldl_concat _ _ _ _

/-- Calls over two stores, of which the one is a view of the other. -/
theorem inTurn_view {τ : Type} {exec : ι → τ → β × τ} {exec' : ι → σ → β × σ} (view : σ → τ)
    (h : ∀ i s, exec i (view s) = ((exec' i s).1, view (exec' i s).2)) (s : σ) (order : List ι) :
    inTurn exec (view s) order = view (inTurn exec' s order) :=
  List.foldl_hom view fun s i => by rw [h i s]

/-! ## Transactions side by side -/

inductive Session (R : Q → Type) (δ β : Type)
  | idle
  /-- What is left of the program, and the writes so far. -/
  | active (prog : Prog R β) (writes : δ)
  | ended (result : β)

/-- The result of a transaction that has no more statements to do. -/
def Session.result : Session R δ β → Option β
  | .active (.ret b) _ => some b
  | .ended b => some b
  | _ => none

structure Sessions (R : Q → Type) (σ δ β ι : Type) where
  store : σ
  session : ι → Session R δ β

/-- What happens next. -/
inductive Move (ι : Type)
  /-- The transaction begins, does its next statement unless that waits, or ends. -/
  | go (i : ι)
  /-- A transaction that has statements to do is rolled back; it can begin again. -/
  | abort (i : ι)

namespace Sessions

variable [DecidableEq ι]

/-- No transaction is open. -/
def init (s : σ) : Sessions R σ δ β ι := ⟨s, fun _ => .idle⟩

def set (w : Sessions R σ δ β ι) (i : ι) (x : Session R δ β) : Sessions R σ δ β ι :=
  ⟨w.store, Function.update w.session i x⟩

variable (w : Sessions R σ δ β ι) (i : ι) (x : Session R δ β)

@[simp] theorem store_set : (w.set i x).store = w.store := rfl

@[simp] theorem session_set_self : (w.set i x).session i = x := by simp [set]

theorem session_set_of_ne {j : ι} (h : j ≠ i) : (w.set i x).session j = w.session j := by
  simp [set, h]

/-- An open transaction is the one that was set, or was there before. -/
theorem active_of_set {w : Sessions R σ δ β ι} {i j : ι} {x : Session R δ β} {p : Prog R β} {d : δ}
    (h : (w.set i x).session j = .active p d) :
    (j = i ∧ x = .active p d) ∨ j ≠ i ∧ w.session j = .active p d := by
  by_cases hji : j = i
  · subst hji
    rw [session_set_self] at h
    exact Or.inl ⟨rfl, h⟩
  · rw [session_set_of_ne _ _ _ hji] at h
    exact Or.inr ⟨hji, h⟩

end Sessions

namespace Engine

variable (E : Engine R σ δ) (commits : β → Bool) (body : ι → Prog R β)

/-- The statement of a transaction with the writes `d` waits for this session. -/
def blocks (s : σ) (d : δ) (q : Q) : Session R δ β → Bool
  | .active _ d' => E.waits s d d' q
  | _ => false

theorem exists_active_of_blocks {s : σ} {d : δ} {q : Q} {x : Session R δ β}
    (h : E.blocks s d q x = true) : ∃ p d', x = .active p d' ∧ E.waits s d d' q = true := by
  cases x with
  | idle => cases h
  | active p d' => exact ⟨p, d', rfl, h⟩
  | ended b => cases h

/-- The transaction `i` waits for `j`. -/
def WaitsFor (w : Sessions R σ δ β ι) (i j : ι) : Prop :=
  j ≠ i ∧ ∃ q k d, w.session i = .active (.call q k) d ∧
    E.blocks w.store d q (w.session j) = true

variable [Fintype ι] [DecidableEq ι]

/-- A statement of `i` waits. -/
def Blocked (w : Sessions R σ δ β ι) (i : ι) (d : δ) (q : Q) : Prop :=
  ∃ j, j ≠ i ∧ E.blocks w.store d q (w.session j) = true

instance (w : Sessions R σ δ β ι) (i : ι) (d : δ) (q : Q) : Decidable (E.Blocked w i d q) :=
  inferInstanceAs (Decidable (∃ j, j ≠ i ∧ E.blocks w.store d q (w.session j) = true))

/-- The end of a transaction. -/
def close (w : Sessions R σ δ β ι) (i : ι) (b : β) (d : δ) : Sessions R σ δ β ι :=
  { w.set i (.ended b) with store := if commits b then E.commit w.store d else w.store }

def step (w : Sessions R σ δ β ι) : Move ι → Sessions R σ δ β ι
  | .go i =>
    match w.session i with
    | .idle => w.set i (.active (body i) E.start)
    | .active (.call q k) d =>
      if E.Blocked w i d q then w
      else w.set i (.active (k (E.answer w.store d q).1) (E.answer w.store d q).2)
    | .active (.ret b) d => E.close commits w i b d
    | .ended _ => w
  | .abort i =>
    match w.session i with
    | .active (.call _ _) _ => w.set i .idle
    | _ => w

/-- What a step can do. -/
inductive Step (w : Sessions R σ δ β ι) : Sessions R σ δ β ι → Prop
  | stay : Step w w
  | enter (i : ι) (hi : w.session i = .idle) : Step w (w.set i (.active (body i) E.start))
  | answer (i : ι) {q : Q} {k : R q → Prog R β} {d : δ} (hi : w.session i = .active (call q k) d)
      (hfree : ¬E.Blocked w i d q) :
      Step w (w.set i (.active (k (E.answer w.store d q).1) (E.answer w.store d q).2))
  | close (i : ι) {b : β} {d : δ} (hi : w.session i = .active (ret b) d) :
      Step w (E.close commits w i b d)
  | abort (i : ι) {q : Q} {k : R q → Prog R β} {d : δ} (hi : w.session i = .active (call q k) d) :
      Step w (w.set i .idle)

theorem step_cases (w : Sessions R σ δ β ι) (m : Move ι) :
    E.Step commits body w (E.step commits body w m) := by
  cases m with
  | go i =>
    rw [Engine.step]
    split
    next hi => exact .enter i hi
    next q k d hi =>
      split_ifs with hblocked
      · exact .stay
      · exact .answer i hi hblocked
    next b d hi => exact .close i hi
    next => exact .stay
  | abort i =>
    rw [Engine.step]
    split
    next q k d hi => exact .abort i hi
    next => exact .stay

variable {E}

theorem waits_of_not_blocked {w : Sessions R σ δ β ι} {i j : ι} {d d' : δ} {q : Q} {p : Prog R β}
    (hfree : ¬E.Blocked w i d q) (hji : j ≠ i) (hj : w.session j = .active p d') :
    E.waits w.store d d' q = false := by
  by_contra hwaits
  refine hfree ⟨j, hji, ?_⟩
  rw [hj]
  exact Bool.of_not_eq_false hwaits

/-- Transactions that wait only for those that hold more do not wait in a circle. -/
theorem not_waitsFor_cycle {w : Sessions R σ δ β ι} (held : δ → ℕ)
    (hheld : ∀ i j q k d p' d', j ≠ i → w.session i = .active (call q k) d →
      w.session j = .active p' d' → E.waits w.store d d' q = true → held d < held d') (i : ι) :
    ¬Relation.TransGen (E.WaitsFor w) i i := by
  let rank : ι → ℕ := fun i =>
    match w.session i with
    | .active _ d => held d
    | _ => 0
  have hrank : ∀ i j, E.WaitsFor w i j → rank i < rank j := by
    rintro i j ⟨hji, q, k, d, hi, hblocks⟩
    obtain ⟨p', d', hj, hwaits⟩ := E.exists_active_of_blocks hblocks
    simp only [rank, hi, hj]
    exact hheld i j q k d p' d' hji hi hj hwaits
  intro h
  have hlt : Relation.TransGen (· < ·) (rank i) (rank i) := h.lift rank hrank
  rw [Relation.transGen_eq_self] at hlt
  exact lt_irrefl _ hlt

/-! ## What every state keeps -/

variable (E) in
/-- The writes of the open transactions are apart, and fit the store. -/
structure Coherent (w : Sessions R σ δ β ι) : Prop where
  apart : ∀ {i j p d p' d'}, i ≠ j → w.session i = .active p d → w.session j = .active p' d' →
    E.Apart d d'
  fits : ∀ {i p d}, w.session i = .active p d → E.Fits w.store d

theorem coherent_init (s : σ) : E.Coherent (Sessions.init s : Sessions R σ δ β ι) where
  apart _ h := by cases h
  fits h := by cases h

namespace Coherent

variable {w : Sessions R σ δ β ι} {i : ι}

/-- A session opens, goes on or is rolled back. -/
theorem set (h : E.Coherent w) {x : Session R δ β}
    (hapart : ∀ {p d j p' d'}, x = .active p d → j ≠ i → w.session j = .active p' d' →
      E.Apart d d')
    (hfits : ∀ {p d}, x = .active p d → E.Fits w.store d) : E.Coherent (w.set i x) where
  apart {j j' p d p' d'} hne hj hj' := by
    obtain ⟨hji, hx⟩ | ⟨hji, hold⟩ := Sessions.active_of_set hj
    · obtain ⟨hji', -⟩ | ⟨hji', hold'⟩ := Sessions.active_of_set hj'
      · exact absurd (hji.trans hji'.symm) hne
      · exact hapart hx hji' hold'
    · obtain ⟨-, hx'⟩ | ⟨-, hold'⟩ := Sessions.active_of_set hj'
      · exact E.apart_symm (hapart hx' hji hold)
      · exact h.apart hne hold hold'
  fits {j p d} hj := by
    obtain ⟨-, hx⟩ | ⟨-, hold⟩ := Sessions.active_of_set hj
    · exact hfits hx
    · exact h.fits hold

theorem close (h : E.Coherent w) {b : β} {d : δ} (hi : w.session i = .active (ret b) d) :
    E.Coherent (E.close commits w i b d) where
  apart hne hj hj' := by
    obtain ⟨-, hx⟩ | ⟨-, hj⟩ := Sessions.active_of_set hj
    · cases hx
    obtain ⟨-, hx⟩ | ⟨-, hj'⟩ := Sessions.active_of_set hj'
    · cases hx
    exact h.apart hne hj hj'
  fits {j p d'} hj := by
    obtain ⟨-, hx⟩ | ⟨hji, hj⟩ := Sessions.active_of_set hj
    · cases hx
    dsimp only [Engine.close]
    split_ifs
    · exact E.fits_commit (h.fits hj) (h.fits hi) (h.apart hji hj hi)
    · exact h.fits hj

theorem step (h : E.Coherent w) {w' : Sessions R σ δ β ι} (hstep : E.Step commits body w w') :
    E.Coherent w' := by
  cases hstep with
  | stay => exact h
  | enter i hi =>
    refine h.set (fun hx _ _ => ?_) fun hx => ?_
    · cases hx
      exact E.apart_start _
    · cases hx
      exact E.fits_start _
  | answer i hi hfree =>
    refine h.set (fun hx hji hj => ?_) fun hx => ?_
    · cases hx
      exact E.apart_answer (h.apart (Ne.symm hji) hi hj) (waits_of_not_blocked hfree hji hj)
    · cases hx
      exact E.fits_answer (h.fits hi)
  | close i hi => exact h.close commits hi
  | abort i hi => exact h.set (fun hx => by cases hx) fun hx => by cases hx

end Coherent

theorem coherent_run (s : σ) (moves : List (Move ι)) :
    E.Coherent (runFrom (E.step commits body) (Sessions.init s) moves) :=
  invariant_runFrom (fun w m h => h.step commits body (E.step_cases commits body w m)) moves
    (coherent_init s)

/-! ## What holds of open transactions -/

variable (E) in
/-- `P` holds of every open transaction, whatever the others commit, and `J` of the store. -/
structure Upheld (J : σ → Prop) (P : ι → σ → Prog R β → δ → Prop) : Prop where
  start : ∀ i s, P i s (body i) E.start
  answer : ∀ i s q k d, P i s (call q k) d → P i s (k (E.answer s d q).1) (E.answer s d q).2
  commit : ∀ i s p d d', P i s p d → E.Fits s d' → E.Apart d d' → P i (E.commit s d') p d
  keep : ∀ i s b d, J s → P i s (ret b) d → commits b = true → E.Fits s d → J (E.commit s d)

namespace Upheld

variable {commits body} {J : σ → Prop} {P : ι → σ → Prog R β → δ → Prop}
  {w : Sessions R σ δ β ι}

theorem runs (h : E.Upheld commits body J P) {s : σ} {i : ι} {p p' : Prog R β} {d d' : δ}
    (hruns : E.Runs s p d p' d') (hp : P i s p d) : P i s p' d' := by
  induction hruns with
  | refl p d => exact hp
  | step _ _ ih => exact ih (h.answer i s _ _ _ hp)

/-- A transaction is settled if it is so wherever `P` holds. -/
theorem settled (h : E.Upheld commits body J P) (i : ι)
    (hp : ∀ s q k d, P i s (call q k) d → ¬E.Firm s d q →
      ∃ b, k (E.answer s d q).1 = ret b ∧ (commits b = true → E.Guarded d)) :
    E.Settled commits (body i) :=
  fun s q k d hruns hfirm => hp s q k d (h.runs hruns (h.start i s)) hfirm

/-- A session opens, goes on or is rolled back. -/
theorem set (hp : ∀ i p d, w.session i = .active p d → P i w.store p d) {i : ι}
    {x : Session R δ β} (hx : ∀ p d, x = .active p d → P i w.store p d) :
    ∀ j p d, (w.set i x).session j = .active p d → P j w.store p d := by
  intro j p d hj
  obtain ⟨rfl, hself⟩ | ⟨-, hj⟩ := Sessions.active_of_set hj
  · exact hx p d hself
  · exact hp j p d hj

theorem close (h : E.Upheld commits body J P) (hc : E.Coherent w) (hj : J w.store)
    (hp : ∀ i p d, w.session i = .active p d → P i w.store p d) {i : ι} {b : β} {d : δ}
    (hi : w.session i = .active (ret b) d) :
    J (E.close commits w i b d).store ∧ ∀ j p d',
      (E.close commits w i b d).session j = .active p d' →
        P j (E.close commits w i b d).store p d' := by
  have hopen : ∀ {j p d'}, (E.close commits w i b d).session j = .active p d' →
      j ≠ i ∧ w.session j = .active p d' := by
    intro j p d' hj
    obtain ⟨-, hx⟩ | hj := Sessions.active_of_set hj
    · cases hx
    · exact hj
  dsimp only [Engine.close] at hopen ⊢
  split_ifs with hcommits
  · refine ⟨h.keep i _ b d hj (hp i _ d hi) hcommits (hc.fits hi), fun j p d' hsession => ?_⟩
    obtain ⟨hji, hsession⟩ := hopen hsession
    exact h.commit j _ p d' d (hp j p d' hsession) (hc.fits hi) (hc.apart hji hsession hi)
  · exact ⟨hj, fun j p d' hsession => hp j p d' (hopen hsession).2⟩

theorem step (h : E.Upheld commits body J P) (hc : E.Coherent w) (hj : J w.store)
    (hp : ∀ i p d, w.session i = .active p d → P i w.store p d) {w' : Sessions R σ δ β ι}
    (hstep : E.Step commits body w w') :
    J w'.store ∧ ∀ i p d, w'.session i = .active p d → P i w'.store p d := by
  cases hstep with
  | stay => exact ⟨hj, hp⟩
  | enter i hi =>
    refine ⟨hj, set hp fun p d hx => ?_⟩
    cases hx
    exact h.start i w.store
  | answer i hi hfree =>
    refine ⟨hj, set hp fun p d hx => ?_⟩
    cases hx
    exact h.answer i w.store _ _ _ (hp i _ _ hi)
  | close i hi => exact h.close hc hj hp hi
  | abort i hi => exact ⟨hj, set hp fun p d hx => by cases hx⟩

/-- In every state, `P` holds of the open transactions and `J` of the store. -/
theorem run (h : E.Upheld commits body J P) {s : σ} (hj : J s) (moves : List (Move ι)) :
    J (runFrom (E.step commits body) (Sessions.init s) moves).store ∧ ∀ i p d,
      (runFrom (E.step commits body) (Sessions.init s) moves).session i = .active p d →
        P i (runFrom (E.step commits body) (Sessions.init s) moves).store p d := by
  refine (invariant_runFrom (I := fun w : Sessions R σ δ β ι =>
    E.Coherent w ∧ J w.store ∧ ∀ i p d, w.session i = .active p d → P i w.store p d) ?_ moves
    ⟨coherent_init s, hj, fun _ _ _ hi => by cases hi⟩).2
  rintro w m ⟨hc, hj, hp⟩
  have hstep := E.step_cases commits body w m
  exact ⟨hc.step commits body hstep, h.step hc hj hp hstep⟩

end Upheld

end Engine

end Choreography
