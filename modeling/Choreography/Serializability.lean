import Choreography.Transactions

/-!
# Settled transactions are serializable

Every interleaving of settled transactions is serial (`serialized_run`), though not in the
order of their commits : a transaction whose last statement is not firm has its place where it
looked, and the others theirs where they commit.

In between, the serial store is ahead of the committed one by the writes of the transactions
that have their place already, the `early` ones. They are guarded, so that they can be committed
in any order (`commitAll_comm`) and nobody notices that they are not there yet
(`answer_commitAll`).
-/

set_option linter.unusedSectionVars false

namespace Choreography.Engine

open Prog

variable {Q : Type} {R : Q → Type} {σ δ β ι : Type} (E : Engine R σ δ)

/-! ## Writes that are about to be committed -/

def commitAll (s : σ) (ds : List δ) : σ := ds.foldl E.commit s

theorem commitAll_append (s : σ) (ds ds' : List δ) :
    E.commitAll s (ds ++ ds') = E.commitAll (E.commitAll s ds) ds' :=
  List.foldl_append

/-- Guarded writes of different transactions. -/
structure Ready (s : σ) (ds : List δ) : Prop where
  apart : ds.Pairwise E.Apart
  fits : ∀ d ∈ ds, E.Fits s d
  guarded : ∀ d ∈ ds, E.Guarded d

variable {E} {s : σ} {d x : δ} {ds : List δ}

theorem Ready.of_cons (h : E.Ready s (x :: ds)) : E.Ready (E.commit s x) ds := by
  obtain ⟨hx, hds⟩ := List.pairwise_cons.mp h.apart
  refine ⟨hds, fun d hd => ?_, fun d hd => h.guarded d (List.mem_cons_of_mem x hd)⟩
  exact E.fits_commit (h.fits d (List.mem_cons_of_mem x hd)) (h.fits x List.mem_cons_self)
    (E.apart_symm (hx d hd))

theorem fits_commitAll (h : E.Ready s ds) (hfits : E.Fits s d) (hapart : ∀ x ∈ ds, E.Apart d x) :
    E.Fits (E.commitAll s ds) d := by
  induction ds generalizing s with
  | nil => exact hfits
  | cons x ds ih =>
    refine ih h.of_cons ?_ fun y hy => hapart y (List.mem_cons_of_mem x hy)
    exact E.fits_commit hfits (h.fits x List.mem_cons_self) (hapart x List.mem_cons_self)

/-- A statement that waits for none of them is answered as if they were committed. -/
theorem answer_commitAll (h : E.Ready s ds) {q : Q}
    (hfree : ∀ x ∈ ds, E.waits s d x q = false) :
    E.answer (E.commitAll s ds) d q = E.answer s d q := by
  induction ds generalizing s with
  | nil => rfl
  | cons x ds ih =>
    obtain ⟨hanswer, hsame⟩ := E.answer_guarded (h.guarded x List.mem_cons_self)
      (h.fits x List.mem_cons_self) (hfree x List.mem_cons_self)
    refine (ih h.of_cons fun y hy => ?_).trans hanswer
    rw [hsame y]
    exact hfree y (List.mem_cons_of_mem x hy)

/-- Guarded writes can be committed after those of another transaction. -/
theorem commitAll_comm (hguarded : ∀ x ∈ ds, E.Guarded x) (hapart : ∀ x ∈ ds, E.Apart x d) :
    E.commitAll (E.commit s d) ds = E.commit (E.commitAll s ds) d := by
  induction ds generalizing s with
  | nil => rfl
  | cons x ds ih =>
    have hcomm := E.commit_comm (hguarded x List.mem_cons_self)
      (hapart x List.mem_cons_self) (s := s)
    calc E.commitAll (E.commit (E.commit s d) x) ds
        = E.commitAll (E.commit (E.commit s x) d) ds := by rw [hcomm]
      _ = E.commit (E.commitAll (E.commit s x) ds) d :=
          ih (fun y hy => hguarded y (List.mem_cons_of_mem x hy))
            fun y hy => hapart y (List.mem_cons_of_mem x hy)

/-! ## The serial order -/

variable (E) (commits : β → Bool) (body : ι → Prog R β)

/-- The store after the transactions, one after the other. -/
def serial (s : σ) (order : List ι) : σ := inTurn (fun i => E.exec commits (body i)) s order

/-- What a transaction that has no more statements to do is going to commit. -/
def pending : Session R δ β → Option δ
  | .active (.ret b) d => if commits b then some d else none
  | _ => none

def pendings (w : Sessions R σ δ β ι) (early : List ι) : List δ :=
  early.filterMap fun i => pending commits (w.session i)

/-- The transactions that have their place ran one after the other, in the given order. Those
that are over have a place, and the open ones in `early`, whose last statement was a look :
their writes are not committed yet, but are already there in the serial store. The other
open ones have seen what they would see in the serial store. -/
structure Serialized (s : σ) (w : Sessions R σ δ β ι) (order early : List ι) : Prop where
  nodup : order.Nodup
  distinct : early.Nodup
  placed : ∀ i, i ∈ order ↔ (∃ b, w.session i = .ended b) ∨ i ∈ early
  ready : ∀ i ∈ early, ∃ b d, w.session i = .active (ret b) d ∧ (commits b = true → E.Guarded d)
  store : E.serial commits body s order = E.commitAll w.store (pendings commits w early)
  results : ∀ pre i post, order = pre ++ i :: post →
    (w.session i).result = some (E.exec commits (body i) (E.serial commits body s pre)).1
  active : ∀ i, i ∉ early → ∀ p d, w.session i = .active p d →
    E.Runs (E.serial commits body s order) (body i) E.start p d

variable {commits body}

theorem pending_eq_some {x : Session R δ β} (h : pending commits x = some d) :
    ∃ b, x = .active (ret b) d ∧ commits b = true := by
  unfold pending at h
  split at h
  next b d' =>
    split_ifs at h with hc
    cases h
    exact ⟨b, rfl, hc⟩
  · cases h

variable {w w' : Sessions R σ δ β ι} {order early : List ι} {i : ι} {p : Prog R β}

theorem pendings_append (early early' : List ι) :
    pendings commits w (early ++ early') = pendings commits w early ++ pendings commits w early' :=
  List.filterMap_append

theorem pendings_cons (i : ι) (early : List ι) :
    pendings commits w (i :: early) =
      (pending commits (w.session i)).toList ++ pendings commits w early := by
  rw [pendings, List.filterMap_cons]
  cases pending commits (w.session i) <;> rfl

theorem pendings_congr (h : ∀ i ∈ early, w'.session i = w.session i) :
    pendings commits w' early = pendings commits w early :=
  List.filterMap_congr fun i hi => by rw [h i hi]

theorem mem_pendings (h : d ∈ pendings commits w early) :
    ∃ i ∈ early, ∃ b, w.session i = .active (ret b) d ∧ commits b = true := by
  obtain ⟨i, hi, hpending⟩ := List.mem_filterMap.mp h
  exact ⟨i, hi, pending_eq_some hpending⟩

variable {E} [DecidableEq ι]

theorem serialized_init (s : σ) :
    E.Serialized commits body s (Sessions.init s : Sessions R σ δ β ι) [] [] where
  nodup := List.nodup_nil
  distinct := List.nodup_nil
  placed _ := by simp [Sessions.init]
  ready i hi := absurd hi List.not_mem_nil
  store := rfl
  results pre i post h := by simp at h
  active _ _ _ _ h := by cases h

namespace Serialized

theorem early_active (h : E.Serialized commits body s w order early) (hi : i ∈ early) :
    ∃ b d, w.session i = .active (ret b) d := by
  obtain ⟨b, d, hsession, -⟩ := h.ready i hi
  exact ⟨b, d, hsession⟩

theorem notMem_order (h : E.Serialized commits body s w order early) (hi : i ∉ early)
    (hend : ∀ b, w.session i ≠ .ended b) : i ∉ order := by
  intro hmem
  obtain ⟨b, hb⟩ | hearly := (h.placed i).mp hmem
  · exact hend b hb
  · exact hi hearly

/-- What is about to be committed is guarded. -/
theorem guarded (h : E.Serialized commits body s w order early)
    (hd : d ∈ pendings commits w early) : E.Guarded d := by
  obtain ⟨i, hi, b, hb, hcommits⟩ := mem_pendings hd
  obtain ⟨b', d', hb', hguarded⟩ := h.ready i hi
  cases hb.symm.trans hb'
  exact hguarded hcommits

theorem ready_pendings (h : E.Serialized commits body s w order early) (hc : E.Coherent w) :
    E.Ready w.store (pendings commits w early) where
  apart := by
    refine List.pairwise_filterMap.mpr (h.distinct.imp fun hne d hd d' hd' => ?_)
    obtain ⟨b, hb, -⟩ := pending_eq_some hd
    obtain ⟨b', hb', -⟩ := pending_eq_some hd'
    exact hc.apart hne hb hb'
  fits d hd := by
    obtain ⟨i, -, b, hb, -⟩ := mem_pendings hd
    exact hc.fits hb
  guarded d hd := h.guarded hd

/-- An open transaction that has no place yet is apart from the early ones. -/
theorem apart_pendings (hc : E.Coherent w) (hi : i ∉ early) (hsession : w.session i = .active p d) :
    ∀ x ∈ pendings commits w early, E.Apart d x := by
  intro x hx
  obtain ⟨j, hj, b, hb, -⟩ := mem_pendings hx
  have hij : i ≠ j := fun hij => hi (hij ▸ hj)
  exact hc.apart hij hsession hb

theorem fits_serial (h : E.Serialized commits body s w order early) (hc : E.Coherent w)
    (hi : i ∉ early) (hsession : w.session i = .active p d) :
    E.Fits (E.serial commits body s order) d := by
  rw [h.store]
  exact fits_commitAll (h.ready_pendings hc) (hc.fits hsession) (apart_pendings hc hi hsession)

/-- A session without a place opens, goes on or is rolled back. -/
theorem set (h : E.Serialized commits body s w order early) (hi : i ∉ early)
    (hend : ∀ b, w.session i ≠ .ended b) {x : Session R δ β} (hend' : ∀ b, x ≠ .ended b)
    (hx : ∀ p d, x = .active p d →
      E.Runs (E.serial commits body s order) (body i) E.start p d) :
    E.Serialized commits body s (w.set i x) order early := by
  have hothers : ∀ j ∈ early, (w.set i x).session j = w.session j := fun j hj =>
    w.session_set_of_ne i x fun hji => hi (hji ▸ hj)
  have hout := h.notMem_order hi hend
  refine ⟨h.nodup, h.distinct, fun j => ?_, fun j hj => ?_, ?_, fun pre j post horder => ?_,
    fun j hj p d hsession => ?_⟩
  · by_cases hji : j = i
    · subst hji
      simp [hout, hend', hi]
    · rw [w.session_set_of_ne i x hji]
      exact h.placed j
  · rw [hothers j hj]
    exact h.ready j hj
  · rw [pendings_congr hothers]
    exact h.store
  · rw [w.session_set_of_ne i x fun hji => hout (hji ▸ horder ▸ by simp)]
    exact h.results pre j post horder
  · obtain ⟨rfl, hself⟩ | ⟨-, hold⟩ := Sessions.active_of_set hsession
    · exact hx p d hself
    · exact h.active j hj p d hold

/-! ### One more place -/

section

variable {b : β}

/-- Where a transaction that gets its place leaves the serial store. -/
theorem exec_place (h : E.Serialized commits body s w order early) (hi : i ∉ early)
    (hsession : w.session i = .active p d)
    (hrun : Prog.run (fun q d => E.answer (E.serial commits body s order) d q) p d = (b, d)) :
    E.exec commits (body i) (E.serial commits body s order) =
      (b, if commits b then E.commit (E.serial commits body s order) d
        else E.serial commits body s order) := by
  rw [exec, (h.active i hi p d hsession).run.trans hrun]

theorem serial_place (h : E.Serialized commits body s w order early) (hi : i ∉ early)
    (hsession : w.session i = .active p d)
    (hrun : Prog.run (fun q d => E.answer (E.serial commits body s order) d q) p d = (b, d)) :
    E.serial commits body s (order ++ [i]) =
      if commits b then E.commit (E.serial commits body s order) d
      else E.serial commits body s order := by
  rw [serial, inTurn_concat, ← serial, h.exec_place hi hsession hrun]

/-- The order with one more transaction. -/
theorem placed_concat (h : E.Serialized commits body s w order early)
    (hother : ∀ j, j ≠ i → w'.session j = w.session j) (j : ι) (hji : j ≠ i) :
    j ∈ order ++ [i] ↔ (∃ b, w'.session j = .ended b) ∨ j ∈ early := by
  rw [hother j hji, List.mem_append, h.placed j]
  simp [hji]

/-- The results of the order with one more transaction. -/
theorem results_concat (h : E.Serialized commits body s w order early) (hout : i ∉ order)
    (hother : ∀ j, j ≠ i → w'.session j = w.session j)
    (hself : (w'.session i).result =
      some (E.exec commits (body i) (E.serial commits body s order)).1)
    (pre : List ι) (j : ι) (post : List ι) (horder : order ++ [i] = pre ++ j :: post) :
    (w'.session j).result =
      some (E.exec commits (body j) (E.serial commits body s pre)).1 := by
  obtain rfl | ⟨post, j', rfl⟩ := List.eq_nil_or_concat post
  · obtain ⟨rfl, hlast⟩ := List.append_inj' horder rfl
    obtain rfl := List.singleton_inj.mp hlast
    exact hself
  · have horder' : order ++ [i] = (pre ++ j :: post) ++ [j'] := by
      rw [horder]
      simp
    obtain ⟨horder'', -⟩ := List.append_inj' horder' rfl
    rw [hother j fun hji => hout (hji ▸ horder'' ▸ by simp)]
    exact h.results pre j post horder''

/-- The other open transactions do not notice. -/
theorem active_concat (h : E.Serialized commits body s w order early) (hc : E.Coherent w)
    (hi : i ∉ early) (hsession : w.session i = .active p d)
    (hrun : Prog.run (fun q d => E.answer (E.serial commits body s order) d q) p d = (b, d))
    {j : ι} {p' : Prog R β} {d' : δ} (hji : j ≠ i) (hj : j ∉ early)
    (hj' : w.session j = .active p' d') :
    E.Runs (E.serial commits body s (order ++ [i])) (body j) E.start p' d' := by
  rw [h.serial_place hi hsession hrun]
  split_ifs
  · exact (h.active j hj p' d' hj').commit (h.fits_serial hc hi hsession)
      (hc.apart hji hj' hsession)
  · exact h.active j hj p' d' hj'

/-- An open transaction whose last statement was a look gets its place. -/
theorem place (h : E.Serialized commits body s w order early) (hc : E.Coherent w)
    (hi : i ∉ early) (hsession : w.session i = .active p d)
    (hguarded : commits b = true → E.Guarded d)
    (hrun : Prog.run (fun q d => E.answer (E.serial commits body s order) d q) p d = (b, d)) :
    E.Serialized commits body s (w.set i (.active (ret b) d)) (order ++ [i]) (early ++ [i]) := by
  have hother : ∀ j, j ≠ i → (w.set i (.active (ret b) d)).session j = w.session j :=
    fun j hji => w.session_set_of_ne i _ hji
  have hout : i ∉ order := h.notMem_order hi fun b hb => by cases hsession.symm.trans hb
  refine ⟨?_, ?_, fun j => ?_, fun j hj => ?_, ?_, h.results_concat hout hother ?_,
    fun j hj p' d' hj' => ?_⟩
  · rw [← List.concat_eq_append]
    exact h.nodup.concat hout
  · rw [← List.concat_eq_append]
    exact h.distinct.concat hi
  · by_cases hji : j = i
    · simp [hji]
    · rw [h.placed_concat hother j hji]
      simp [hji]
  · by_cases hji : j = i
    · subst hji
      exact ⟨b, d, w.session_set_self j _, hguarded⟩
    · rw [hother j hji]
      exact h.ready j (by simpa [hji] using hj)
  · rw [h.serial_place hi hsession hrun, pendings_append, commitAll_append,
      pendings_congr fun j hj => hother j fun hji => hi (hji ▸ hj), w.store_set, ← h.store,
      pendings_cons, w.session_set_self, pending]
    split_ifs <;> rfl
  · rw [w.session_set_self, h.exec_place hi hsession hrun]
    rfl
  · rw [List.mem_append, List.mem_singleton, not_or] at hj
    rw [hother j hj.2] at hj'
    exact h.active_concat hc hi hsession hrun hj.2 hj.1 hj'

/-- A transaction that gets its place with its commit is over. -/
theorem close_late (h : E.Serialized commits body s w order early) (hc : E.Coherent w)
    (hi : i ∉ early) (hsession : w.session i = .active (ret b) d) :
    E.Serialized commits body s (E.close commits w i b d) (order ++ [i]) early := by
  have hother : ∀ j, j ≠ i → (E.close commits w i b d).session j = w.session j :=
    fun j hji => w.session_set_of_ne i _ hji
  have hself : (E.close commits w i b d).session i = .ended b := w.session_set_self i _
  have hothers : ∀ j ∈ early, (E.close commits w i b d).session j = w.session j :=
    fun j hj => hother j fun hji => hi (hji ▸ hj)
  have hout : i ∉ order := h.notMem_order hi fun b hb => by cases hsession.symm.trans hb
  refine ⟨?_, h.distinct, fun j => ?_, fun j hj => ?_, ?_, h.results_concat hout hother ?_,
    fun j hj p' d' hj' => ?_⟩
  · rw [← List.concat_eq_append]
    exact h.nodup.concat hout
  · by_cases hji : j = i
    · subst hji
      simp [hself]
    · exact h.placed_concat hother j hji
  · rw [hothers j hj]
    exact h.ready j hj
  · have hapart : ∀ x ∈ pendings commits w early, E.Apart x d := fun x hx =>
      E.apart_symm (apart_pendings hc hi hsession x hx)
    rw [h.serial_place hi hsession rfl, pendings_congr hothers, h.store]
    dsimp only [Engine.close]
    split_ifs
    · exact (commitAll_comm (fun x hx => h.guarded hx) hapart).symm
    · rfl
  · rw [hself, h.exec_place hi hsession rfl]
    rfl
  · obtain ⟨-, hx⟩ | ⟨hji, hold⟩ := Sessions.active_of_set hj'
    · cases hx
    · exact h.active_concat hc hi hsession rfl hji hj hold

end

/-- The writes of an early transaction can be committed before those of the others. -/
theorem commitAll_close {pre post : List ι} {b : β}
    (h : E.Serialized commits body s w order (pre ++ i :: post)) (hc : E.Coherent w)
    (hsession : w.session i = .active (ret b) d) :
    E.commitAll w.store (pendings commits w (pre ++ i :: post)) =
      E.commitAll (E.close commits w i b d).store (pendings commits w (pre ++ post)) := by
  have hpre : i ∉ pre := fun hmem =>
    (List.nodup_middle.mp h.distinct).notMem (List.mem_append_left post hmem)
  have hguarded : ∀ x ∈ pendings commits w pre, E.Guarded x := fun x hx =>
    h.guarded (by rw [pendings_append]; exact List.mem_append_left _ hx)
  have hapart : ∀ x ∈ pendings commits w pre, E.Apart x d := fun x hx =>
    E.apart_symm (apart_pendings hc hpre hsession x hx)
  rw [pendings_append, pendings_append, pendings_cons, commitAll_append, commitAll_append,
    commitAll_append, hsession, pending]
  dsimp only [Engine.close]
  split_ifs
  · rw [commitAll_comm hguarded hapart]
    rfl
  · rfl

/-- An early transaction is over : the serial store has its writes already. -/
theorem close_early (h : E.Serialized commits body s w order early) (hc : E.Coherent w)
    (hi : i ∈ early) {b : β} (hsession : w.session i = .active (ret b) d) :
    ∃ early' ⊆ early, E.Serialized commits body s (E.close commits w i b d) order early' := by
  obtain ⟨pre, post, rfl⟩ := List.append_of_mem hi
  have hother : ∀ j, j ≠ i → (E.close commits w i b d).session j = w.session j :=
    fun j hji => w.session_set_of_ne i _ hji
  have hself : (E.close commits w i b d).session i = .ended b := w.session_set_self i _
  have hsub : List.Sublist (pre ++ post) (pre ++ i :: post) :=
    (List.sublist_cons_self i post).append_left pre
  have hne : ∀ j ∈ pre ++ post, j ≠ i := by
    rintro j hj rfl
    exact (List.nodup_middle.mp h.distinct).notMem hj
  refine ⟨pre ++ post, hsub.subset, h.nodup, h.distinct.sublist hsub, fun j => ?_, fun j hj => ?_,
    ?_, fun pre' j post' horder => ?_, fun j hj p' d' hj' => ?_⟩
  · by_cases hji : j = i
    · subst hji
      simp [hself, (h.placed j).mpr (Or.inr hi)]
    · rw [hother j hji, h.placed j]
      simp [hji]
  · rw [hother j (hne j hj)]
    exact h.ready j (hsub.subset hj)
  · rw [h.store, h.commitAll_close hc hsession, pendings_congr fun j hj => hother j (hne j hj)]
  · by_cases hji : j = i
    · subst hji
      rw [hself, ← h.results pre' j post' horder, hsession]
      rfl
    · rw [hother j hji]
      exact h.results pre' j post' horder
  · obtain ⟨-, hx⟩ | ⟨hji, hold⟩ := Sessions.active_of_set hj'
    · cases hx
    · refine h.active j (fun hmem => hj ?_) p' d' hold
      simpa [hji] using hmem

variable [Fintype ι]

/-- A statement that does not wait is answered as over the serial store. -/
theorem answer_eq (h : E.Serialized commits body s w order early) (hc : E.Coherent w)
    (hi : i ∉ early) {q : Q} (hfree : ¬E.Blocked w i d q) :
    E.answer w.store d q = E.answer (E.serial commits body s order) d q := by
  rw [h.store]
  refine (answer_commitAll (h.ready_pendings hc) fun x hx => ?_).symm
  obtain ⟨j, hj, b, hb, -⟩ := mem_pendings hx
  exact waits_of_not_blocked hfree (fun hji => hi (hji ▸ hj)) hb

/-- The next statement of a transaction : if it is not firm, the transaction gets its place. -/
theorem answer (h : E.Serialized commits body s w order early) (hc : E.Coherent w) {q : Q}
    {k : R q → Prog R β} (hbody : E.Settled commits (body i))
    (hi : w.session i = .active (call q k) d) (hfree : ¬E.Blocked w i d q) :
    ∃ order' early', E.Serialized commits body s
        (w.set i (.active (k (E.answer w.store d q).1) (E.answer w.store d q).2)) order' early' ∧
      (early' ⊆ early ∨ ∃ s d q, ¬E.Firm s d q) := by
  have hearly : i ∉ early := by
    intro hmem
    obtain ⟨b, d', hi'⟩ := h.early_active hmem
    cases hi.symm.trans hi'
  have hruns := h.active i hearly _ d hi
  rw [h.answer_eq hc hearly hfree]
  by_cases hfirm : E.Firm (E.serial commits body s order) d q
  · refine ⟨order, early, h.set hearly ?_ ?_ fun p' d' hx => ?_, Or.inl (List.Subset.refl _)⟩
    · intro b hb
      cases hi.symm.trans hb
    · intro b hb
      cases hb
    · cases hx
      exact hruns.snoc hfirm
  · obtain ⟨b, hret, hguarded⟩ := hbody _ q k d hruns hfirm
    have hlook := E.answer_of_not_firm hfirm
    rw [hret, hlook]
    refine ⟨order ++ [i], early ++ [i], h.place hc hearly hi hguarded ?_, Or.inr ⟨_, d, q, hfirm⟩⟩
    rw [Prog.run, hret, hlook]
    rfl

/-- A step keeps the places that are taken, or one more is. -/
theorem step (hbody : ∀ i, E.Settled commits (body i))
    (h : E.Serialized commits body s w order early) (hc : E.Coherent w)
    (hstep : E.Step commits body w w') :
    ∃ order' early', E.Serialized commits body s w' order' early' ∧
      (early' ⊆ early ∨ ∃ s d q, ¬E.Firm s d q) := by
  have hnot : ∀ {i}, (∀ b d, w.session i ≠ .active (ret b) d) → i ∉ early := by
    intro i hi hmem
    obtain ⟨b, d, hactive⟩ := h.early_active hmem
    exact hi b d hactive
  cases hstep with
  | stay => exact ⟨order, early, h, Or.inl (List.Subset.refl _)⟩
  | enter i hi =>
    refine ⟨order, early, h.set (hnot ?_) ?_ ?_ fun p d hx => ?_, Or.inl (List.Subset.refl _)⟩
    · simp [hi]
    · simp [hi]
    · simp
    · cases hx
      exact .refl _ _
  | answer i hi hfree => exact h.answer hc (hbody i) hi hfree
  | close i hi =>
    by_cases hearly : i ∈ early
    · obtain ⟨early', hsub, h'⟩ := h.close_early hc hearly hi
      exact ⟨order, early', h', Or.inl hsub⟩
    · exact ⟨order ++ [i], early, h.close_late hc hearly hi, Or.inl (List.Subset.refl _)⟩
  | abort i hi =>
    refine ⟨order, early, h.set (hnot ?_) ?_ ?_ fun p d hx => ?_, Or.inl (List.Subset.refl _)⟩
    · simp [hi]
    · simp [hi]
    · simp
    · cases hx

/-- If there are no early transactions, those that are over are the ones with a place. -/
theorem mem_order_iff (h : E.Serialized commits body s w order []) (i : ι) :
    i ∈ order ↔ ∃ b, w.session i = .ended b := by
  simpa using h.placed i

theorem ended_of_order (h : E.Serialized commits body s w order []) {pre post : List ι}
    (horder : order = pre ++ i :: post) :
    w.session i = .ended (E.exec commits (body i) (E.serial commits body s pre)).1 := by
  obtain ⟨b, hb⟩ := (h.mem_order_iff i).mp (horder ▸ by simp)
  have hresult := h.results pre i post horder
  rw [hb] at hresult
  rw [hb, Option.some.inj hresult]

/-- Once no transaction is open, the store is that of the serial order. -/
theorem store_of_closed (h : E.Serialized commits body s w order early)
    (hclosed : ∀ i p d, w.session i ≠ .active p d) :
    w.store = E.serial commits body s order := by
  obtain rfl : early = [] := by
    refine List.eq_nil_iff_forall_not_mem.mpr fun i hi => ?_
    obtain ⟨b, d, hactive⟩ := h.early_active hi
    exact hclosed i _ d hactive
  exact h.store.symm

end Serialized

variable [Fintype ι]

variable (E commits body) in
/-- Every interleaving of settled transactions is serial, in the order of their commits if all
statements are firm. -/
theorem serialized_run (hbody : ∀ i, E.Settled commits (body i)) (s : σ)
    (moves : List (Move ι)) :
    ∃ order early, E.Serialized commits body s
        (runFrom (E.step commits body) (Sessions.init s) moves) order early ∧
      ((∀ s d q, E.Firm s d q) → early = []) := by
  refine (invariant_runFrom (I := fun w => E.Coherent w ∧ ∃ order early,
    E.Serialized commits body s w order early ∧ ((∀ s d q, E.Firm s d q) → early = []))
    ?_ moves ⟨coherent_init s, [], [], serialized_init s, fun _ => rfl⟩).2
  rintro w m ⟨hc, order, early, h, hfirm⟩
  have hstep := E.step_cases commits body w m
  obtain ⟨order', early', h', hgrows⟩ := h.step hbody hc hstep
  refine ⟨hc.step commits body hstep, order', early', h', fun hall => ?_⟩
  obtain hsub | ⟨s, d, q, hnot⟩ := hgrows
  · rw [hfirm hall] at hsub
    exact List.subset_nil.mp hsub
  · exact absurd (hall s d q) hnot

end Choreography.Engine
