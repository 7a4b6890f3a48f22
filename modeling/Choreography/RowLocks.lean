import Choreography.Serializability

/-!
# Row locks

Transactions whose statements look at one row each, at READ COMMITTED. A statement sees the
rows that are committed and those that its own transaction has written, and waits only if it
would lock a row that another open transaction has locked. One that locks nothing, as a plain
SELECT or an UPDATE that finds nothing to change, does not wait, and what it saw can change
before its transaction is over.

`Rows.engine` is the engine of such statements. One is firm if it locks its row, or would do the
same with every later row, and writes are guarded if nobody looks at their rows without a lock.
`exec_eq` is a transaction that runs alone : it reads and writes the rows themselves.
-/

set_option linter.unusedSectionVars false

namespace Choreography.RowLocks

open Prog

variable {K Q : Type} {V : K → Type} {R : Q → Type}

/-! ## Statements -/

/-- What a statement does with the row that it finds. -/
inductive Effect (A V : Type)
  /-- Neither lock nor write. -/
  | look (a : A)
  | lock (a : A)
  | write (a : A) (v : V)

namespace Effect

variable {A V : Type}

def answer : Effect A V → A
  | look a => a
  | lock a => a
  | write a _ => a

def locks : Effect A V → Bool
  | look _ => false
  | lock _ => true
  | write _ _ => true

/-- The rows after the statement. -/
def put {K : Type} [DecidableEq K] {V : K → Type} {k : K} (e : Effect A (V k))
    (s : (k : K) → V k) : (k : K) → V k :=
  match e with
  | write _ v => Function.update s k v
  | _ => s

end Effect

/-- The row that a statement is about, if any, with what it does there. -/
inductive Touch (V : K → Type) (A : Type)
  | none (a : A)
  | row (k : K) (effect : V k → Effect A (V k))

/-- `INSERT … ON CONFLICT` : a row that is not there is written. -/
abbrev Touch.insert {A : Type} (k : K) (taken : V k → Bool) (v : V k) (done conflict : A) :
    Touch V A :=
  .row k fun old => if taken old then .look conflict else .write done v

/-- The statements over a store of rows, and how a row can change in the course of time. -/
structure Rows (R : Q → Type) (V : K → Type) where
  touch : (q : Q) → Touch V (R q)
  Later : (k : K) → V k → V k → Prop
  later_refl : ∀ k v, Later k v v
  later_trans : ∀ {k v v' v''}, Later k v v' → Later k v' v'' → Later k v v''
  later_write : ∀ {q k effect v a v'}, touch q = .row k effect → effect v = .write a v' →
    Later k v v'

abbrev Store (V : K → Type) := (k : K) → V k

/-- What a transaction has locked and written. -/
structure Writes (V : K → Type) where
  locks : List K
  written : (k : K) → Option (V k)
  covered : ∀ k v, written k = some v → k ∈ locks

namespace Writes

variable [DecidableEq K]

def empty : Writes V := ⟨[], fun _ => none, fun _ _ h => by cases h⟩

/-- The rows as the transaction sees them, and as its commit leaves them. -/
def see (d : Writes V) (s : Store V) : Store V := fun k => (d.written k).getD (s k)

def lock (d : Writes V) (k : K) : Writes V :=
  ⟨k :: d.locks, d.written, fun k' v h => List.mem_cons_of_mem k (d.covered k' v h)⟩

def write (d : Writes V) (k : K) (v : V k) : Writes V where
  locks := k :: d.locks
  written := Function.update d.written k (some v)
  covered k' v' h := by
    by_cases hk : k' = k
    · rw [hk]
      exact List.mem_cons_self
    · rw [Function.update_of_ne hk] at h
      exact List.mem_cons_of_mem k (d.covered k' v' h)

def record {A : Type} (d : Writes V) (k : K) : Effect A (V k) → Writes V
  | .look _ => d
  | .lock _ => d.lock k
  | .write _ v => d.write k v

variable {d : Writes V} {s : Store V} {k : K}

theorem see_of_written {v : V k} (h : d.written k = some v) : d.see s k = v := by
  simp [see, h]

theorem see_of_not_written (h : d.written k = none) : d.see s k = s k := by
  simp [see, h]

theorem not_written (h : k ∉ d.locks) : d.written k = none := by
  cases hw : d.written k with
  | none => rfl
  | some v => exact absurd (d.covered k v hw) h

theorem locks_record {A : Type} (d : Writes V) (e : Effect A (V k)) :
    (d.record k e).locks = if e.locks then k :: d.locks else d.locks := by
  cases e <;> rfl

theorem see_record {A : Type} (d : Writes V) (s : Store V) (e : Effect A (V k)) :
    (d.record k e).see s = e.put (d.see s) := by
  cases e with
  | look a => rfl
  | lock a => rfl
  | write a v =>
    funext k'
    by_cases hk : k' = k
    · subst hk
      simp [record, write, see, Effect.put]
    · simp [record, write, see, Effect.put, hk]

theorem written_record {A : Type} {e : Effect A (V k)} {k' : K} {v : V k'}
    (h : (d.record k e).written k' = some v) :
    d.written k' = some v ∨ ∃ hk : k = k', ∃ a, e = .write a (hk ▸ v) := by
  cases e with
  | look a => exact Or.inl h
  | lock a => exact Or.inl h
  | write a v₀ =>
    have hupdate : Function.update d.written k (some v₀) k' = some v := h
    by_cases hk : k = k'
    · subst hk
      rw [Function.update_self] at hupdate
      exact Or.inr ⟨rfl, a, by rw [Option.some.inj hupdate]⟩
    · rw [Function.update_of_ne (Ne.symm hk)] at hupdate
      exact Or.inl hupdate

end Writes

namespace Rows

variable [DecidableEq K] (T : Rows R V)

/-- What a statement answers, over the committed rows and the writes of its transaction. -/
def answer (s : Store V) (d : Writes V) (q : Q) : R q × Writes V :=
  match T.touch q with
  | .none a => (a, d)
  | .row k effect => ((effect (d.see s k)).answer, d.record k (effect (d.see s k)))

/-- The statement would lock a row that a transaction with the writes `d'` has locked. -/
def waits (s : Store V) (d d' : Writes V) (q : Q) : Bool :=
  match T.touch q with
  | .none _ => false
  | .row k effect => (effect (d.see s k)).locks && decide (k ∈ d'.locks)

/-- The rows that were written are later ones. -/
def Fits (s : Store V) (d : Writes V) : Prop :=
  ∀ k v, d.written k = some v → T.Later k (s k) v

/-- If the statement locks nothing, it would do the same with every later row. -/
def Firm (s : Store V) (d : Writes V) (q : Q) : Prop :=
  ∀ k effect, T.touch q = .row k effect → (effect (d.see s k)).locks = false →
    ∀ v, T.Later k (d.see s k) v → effect v = effect (d.see s k)

/-- Nobody looks at the row without a lock, unless what they see there is firm. -/
def Guarded (k : K) : Prop :=
  ∀ q effect, T.touch q = .row k effect → ∀ v, (effect v).locks = false →
    ∀ v', T.Later k v v' → effect v' = effect v

variable {T} {s s' : Store V} {d d' : Writes V} {q : Q}

/-- What a statement locks is its row. -/
theorem mem_locks_answer {k : K} (h : k ∈ (T.answer s d q).2.locks) :
    k ∈ d.locks ∨ ∃ effect, T.touch q = .row k effect := by
  unfold answer at h
  split at h
  · exact Or.inl h
  next k' effect htouch =>
    rw [Writes.locks_record] at h
    split_ifs at h
    · obtain rfl | h := List.mem_cons.mp h
      · exact Or.inr ⟨effect, htouch⟩
      · exact Or.inl h
    · exact Or.inl h

theorem locks_subset : d.locks ⊆ (T.answer s d q).2.locks := by
  unfold answer
  split
  · exact List.Subset.refl _
  · rw [Writes.locks_record]
    split_ifs
    · exact List.subset_cons_self _ _
    · exact List.Subset.refl _

/-- A row that is written is a later one. -/
theorem written_answer {k : K} {v : V k} (h : (T.answer s d q).2.written k = some v) :
    d.written k = some v ∨ T.Later k (d.see s k) v := by
  unfold answer at h
  split at h
  · exact Or.inl h
  next k' effect htouch =>
    obtain hold | ⟨rfl, a, he⟩ := Writes.written_record h
    · exact Or.inl hold
    · exact Or.inr (T.later_write htouch he)

/-- A statement that does not wait leaves the locks apart. -/
theorem disjoint_answer (h : d.locks.Disjoint d'.locks) (hw : T.waits s d d' q = false) :
    (T.answer s d q).2.locks.Disjoint d'.locks := by
  unfold waits at hw
  unfold answer
  split at hw
  · exact h
  next k effect htouch =>
    rw [Writes.locks_record]
    split_ifs with hlocks
    · rw [hlocks, Bool.true_and, decide_eq_false_iff_not] at hw
      exact List.disjoint_cons_left.mpr ⟨hw, h⟩
    · exact h

theorem Fits.answer (h : T.Fits s d) : T.Fits s (T.answer s d q).2 := by
  intro k v hv
  obtain hold | hlater := written_answer hv
  · exact h k v hold
  · cases hw : d.written k with
    | none => rwa [Writes.see_of_not_written hw] at hlater
    | some v₀ =>
      rw [Writes.see_of_written hw] at hlater
      exact T.later_trans (h k v₀ hw) hlater

/-- A commit makes rows later, -/
theorem Fits.later (h : T.Fits s d) (k : K) : T.Later k (s k) (d.see s k) := by
  cases hw : d.written k with
  | none =>
    rw [Writes.see_of_not_written hw]
    exact T.later_refl k _
  | some v =>
    rw [Writes.see_of_written hw]
    exact h k v hw

/-- but not those that another transaction has locked. -/
theorem see_of_disjoint (h : d.locks.Disjoint d'.locks) (s : Store V) :
    ∀ k ∈ d.locks, d'.see s k = s k :=
  fun _ hk => Writes.see_of_not_written (Writes.not_written (h hk))

theorem Fits.commit (h : T.Fits s d) (hapart : d.locks.Disjoint d'.locks) :
    T.Fits (d'.see s) d := by
  intro k v hv
  rw [see_of_disjoint hapart s k (d.covered k v hv)]
  exact h k v hv

theorem later_see (h : ∀ k, T.Later k (s k) (s' k)) (d : Writes V) (k : K) :
    T.Later k (d.see s k) (d.see s' k) := by
  unfold Writes.see
  cases d.written k with
  | none => exact h k
  | some v => exact T.later_refl k v

/-- A firm statement is answered the same when rows that its transaction has not locked are
later. -/
theorem answer_later (hfirm : T.Firm s d q) (hlater : ∀ k, T.Later k (s k) (s' k))
    (hlocked : ∀ k ∈ (T.answer s d q).2.locks, s' k = s k) :
    T.answer s' d q = T.answer s d q ∧ T.Firm s' d q := by
  cases htouch : T.touch q with
  | none a =>
    refine ⟨by simp only [answer, htouch], fun k effect h => ?_⟩
    rw [htouch] at h
    cases h
  | row k effect =>
    simp only [answer, htouch, Writes.locks_record] at hlocked
    have hsee := later_see hlater d k
    have heffect : effect (d.see s' k) = effect (d.see s k) := by
      cases hl : (effect (d.see s k)).locks with
      | false => exact hfirm k effect htouch hl _ hsee
      | true =>
        rw [hl, if_pos rfl] at hlocked
        rw [Writes.see, hlocked k List.mem_cons_self, Writes.see]
    refine ⟨by simp only [answer, htouch, heffect], fun k' effect' h hl v hv => ?_⟩
    rw [htouch] at h
    cases h
    rw [heffect] at hl ⊢
    exact hfirm k effect htouch hl v (T.later_trans hsee hv)

/-- A statement that is not firm is a look. -/
theorem answer_of_not_firm (h : ¬T.Firm s d q) : (T.answer s d q).2 = d := by
  unfold Firm at h
  push Not at h
  obtain ⟨k, effect, htouch, hlocks, -⟩ := h
  cases he : effect (d.see s k) with
  | look a => simp only [answer, htouch, he, Writes.record]
  | lock a => simp [he, Effect.locks] at hlocks
  | write a v => simp [he, Effect.locks] at hlocks

/-- A statement does the same over rows that are guarded and about to be committed, unless it
waits for them. -/
theorem effect_guarded (hguarded : ∀ k v, d'.written k = some v → T.Guarded k)
    (hfits : T.Fits s d') (hw : T.waits s d d' q = false) {k : K}
    {effect : V k → Effect (R q) (V k)} (htouch : T.touch q = .row k effect) :
    effect (d.see (d'.see s) k) = effect (d.see s k) := by
  cases hv : d'.written k with
  | none => rw [Writes.see, Writes.see_of_not_written hv, Writes.see]
  | some v =>
    have hk := d'.covered k v hv
    refine hguarded k v hv q effect htouch _ ?_ _ (later_see hfits.later d k)
    simpa [waits, htouch, hk] using hw

theorem see_comm (h : d.locks.Disjoint d'.locks) (s : Store V) :
    d'.see (d.see s) = d.see (d'.see s) := by
  funext k
  cases hk : d.written k with
  | none =>
    rw [Writes.see_of_not_written hk, Writes.see, Writes.see_of_not_written hk, Writes.see]
  | some v =>
    rw [see_of_disjoint h _ k (d.covered k v hk), Writes.see_of_written hk,
      Writes.see_of_written hk]

variable (T) in
/-- The engine of statements that lock rows. -/
def engine : Engine R (Store V) (Writes V) where
  start := .empty
  answer := T.answer
  commit s d := d.see s
  waits := T.waits
  Apart d d' := d.locks.Disjoint d'.locks
  Fits := T.Fits
  Firm := T.Firm
  Guarded d := ∀ k v, d.written k = some v → T.Guarded k
  apart_start d := List.disjoint_nil_left d.locks
  apart_symm h := h.symm
  apart_of_answer h := List.disjoint_of_subset_left locks_subset h
  apart_answer := disjoint_answer
  fits_start s k v hv := by cases hv
  fits_answer := Fits.answer
  fits_commit h _ hapart := h.commit hapart
  answer_commit hfirm hfits hapart :=
    answer_later hfirm hfits.later (see_of_disjoint hapart _)
  answer_of_not_firm := answer_of_not_firm
  commit_comm _ hapart := see_comm hapart _
  answer_guarded {s d q d'} hguarded hfits hw := by
    cases htouch : T.touch q with
    | none a => simp only [answer, waits, htouch, implies_true, and_self]
    | row k effect =>
      have heffect := effect_guarded hguarded hfits hw htouch
      simp only [answer, waits, htouch, heffect, implies_true, and_self]

/-! ## A transaction alone -/

variable {β ι : Type}

variable (T) (commits : β → Bool)

/-- A statement over rows that nobody else writes. -/
def apply (q : Q) (s : Store V) : R q × Store V :=
  match T.touch q with
  | .none a => (a, s)
  | .row k effect => ((effect (s k)).answer, (effect (s k)).put s)

/-- The rest of a transaction over rows that nobody else writes, from the rows `s₀` at its
start. -/
def alone (s₀ s : Store V) (p : Prog R β) : β × Store V :=
  let last := Prog.run T.apply p s
  (last.1, if commits last.1 then last.2 else s₀)

theorem alone_request (s₀ s : Store V) (q : Q) (k : R q → Prog R β) :
    T.alone commits s₀ s (request q >>= k) =
      T.alone commits s₀ (T.apply q s).2 (k (T.apply q s).1) := rfl

/-- A transaction that runs alone reads and writes the rows themselves. -/
theorem exec_eq (p : Prog R β) (s : Store V) :
    T.engine.exec commits p s = T.alone commits s s p := by
  have hrun : ∀ (p : Prog R β) (d : Writes V),
      (Prog.run (fun q d => T.answer s d q) p d).1 = (Prog.run T.apply p (d.see s)).1 ∧
        (Prog.run (fun q d => T.answer s d q) p d).2.see s =
          (Prog.run T.apply p (d.see s)).2 := by
    intro p
    induction p with
    | ret b => exact fun d => ⟨rfl, rfl⟩
    | call q k ih =>
      intro d
      have hanswer : (T.answer s d q).1 = (T.apply q (d.see s)).1 ∧
          (T.answer s d q).2.see s = (T.apply q (d.see s)).2 := by
        unfold answer apply
        split
        · exact ⟨rfl, rfl⟩
        next k' effect _ => exact ⟨rfl, Writes.see_record d s _⟩
      rw [Prog.run, Prog.run, ← hanswer.1, ← hanswer.2]
      exact ih _ _
  obtain ⟨hresult, hrows⟩ := hrun p Writes.empty
  simp only [Engine.exec, engine, alone, hresult, hrows]
  rfl

/-! ## Statements -/

variable {T}

/-- A statement waits for a transaction that has locked its row, and would lock it itself. -/
theorem waits_eq_true (h : T.waits s d d' q = true) :
    ∃ k effect, T.touch q = .row k effect ∧ (effect (d.see s k)).locks = true ∧ k ∈ d'.locks := by
  unfold waits at h
  split at h
  · cases h
  next k effect htouch =>
    rw [Bool.and_eq_true, decide_eq_true_eq] at h
    exact ⟨k, effect, htouch, h.1, h.2⟩

section

variable {k : K} {taken : V k → Bool} {v : V k} {done conflict : R q}

theorem apply_insert (h : T.touch q = .insert k taken v done conflict) (s : Store V) :
    T.apply q s =
      if taken (s k) then (conflict, s) else (done, Function.update s k v) := by
  rw [apply, h]
  dsimp only [Touch.insert]
  split_ifs <;> rfl

theorem answer_insert (h : T.touch q = .insert k taken v done conflict) (s : Store V)
    (d : Writes V) :
    T.answer s d q = if taken (d.see s k) then (conflict, d) else (done, d.write k v) := by
  rw [answer, h]
  dsimp only [Touch.insert]
  split_ifs <;> rfl

/-- A row that is there stays there. -/
theorem firm_insert (h : T.touch q = .insert k taken v done conflict)
    (hlater : ∀ v v', T.Later k v v' → taken v = true → taken v' = true) : T.Firm s d q := by
  intro k' effect htouch hlocks v' hv'
  cases h.symm.trans htouch
  dsimp only at hlocks ⊢
  by_cases htaken : taken (d.see s k) = true
  · rw [if_pos htaken, if_pos (hlater _ _ hv' htaken)]
  · rw [if_neg htaken] at hlocks
    cases hlocks

end

/-! ## Serial transactions -/

variable [DecidableEq ι] {commits} {body : ι → Prog R β}
  {w : Sessions R (Store V) (Writes V) β ι} {order early : List ι}

theorem commitAll_of_not_written {k : K} {ds : List (Writes V)}
    (h : ∀ d ∈ ds, d.written k = none) (s : Store V) : T.engine.commitAll s ds k = s k := by
  induction ds generalizing s with
  | nil => rfl
  | cons d ds ih =>
    refine (ih (fun d' hd' => h d' (List.mem_cons_of_mem d hd')) _).trans ?_
    exact Writes.see_of_not_written (h d List.mem_cons_self)

/-- A row that is looked at without a lock is in the serial store as it is committed. -/
theorem serial_eq_of_not_guarded (h : T.engine.Serialized commits body s w order early) {k : K}
    (hk : ¬T.Guarded k) : T.engine.serial commits body s order k = w.store k := by
  rw [h.store]
  refine commitAll_of_not_written (fun d hd => ?_) w.store
  by_contra hsome
  obtain ⟨v, hv⟩ := Option.ne_none_iff_exists'.mp hsome
  exact hk (h.guarded hd k v hv)

end Rows

end Choreography.RowLocks
