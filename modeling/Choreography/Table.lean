import Mathlib

/-!
# Tables with a unique key

A `Table` is a list of rows whose keys are distinct, the proof of which it carries :
a primary key or a unique column. `insert` refuses a row whose key is taken, `update`
rewrites the row of a key and keeps the key. `find?_of_insert` and `find?_update` say
what a lookup returns afterwards, `sum_of_insert` and `sum_update` what becomes of a
sum over the rows, `countP_of_insert` and `countP_update` the same for a count,
`sum_eq_of_find?` when two tables have the same sum, and `filter_of_find?` that a key has
one row.
-/

set_option linter.unusedSectionVars false

namespace Choreography

variable {α κ M : Type*} {key : α → κ}

/-- Rows with distinct keys. -/
structure Table (α : Type*) {κ : Type*} (key : α → κ) where
  rows : List α
  nodup : (rows.map key).Nodup

namespace Table

/-- The table without rows. -/
def empty : Table α key := ⟨[], List.nodup_nil⟩

@[simp] theorem rows_empty : (empty : Table α key).rows = [] := rfl

variable [DecidableEq κ]

/-- The row of the key `k`. -/
def find? (t : Table α key) (k : κ) : Option α :=
  t.rows.find? fun r => key r = k

/-- Append a row, unless its key is taken. -/
def insert (t : Table α key) (r : α) : Option (Table α key) :=
  if h : key r ∈ t.rows.map key then none
  else some ⟨t.rows ++ [r], by
    rw [List.map_append, List.map_singleton, ← List.concat_eq_append]
    exact t.nodup.concat h⟩

/-- Rewrite the row of the key `k`, keeping its key. -/
def update (t : Table α key) (k : κ) (f : α → α) (hf : ∀ r, key (f r) = key r) :
    Table α key :=
  ⟨t.rows.map fun r => if key r = k then f r else r, by
    have hkey : (key ∘ fun r => if key r = k then f r else r) = key := by
      funext r
      simp only [Function.comp_apply]
      split_ifs
      · exact hf r
      · rfl
    rw [List.map_map, hkey]
    exact t.nodup⟩

theorem rows_update (t : Table α key) (k : κ) (f : α → α) (hf : ∀ r, key (f r) = key r) :
    (t.update k f hf).rows = t.rows.map fun r => if key r = k then f r else r := rfl

/-! ## Lookups -/

theorem find?_eq_some {t : Table α key} {k : κ} {r : α} :
    t.find? k = some r ↔ r ∈ t.rows ∧ key r = k := by
  have found : ∀ {r'}, t.find? k = some r' → r' ∈ t.rows ∧ key r' = k := fun h =>
    ⟨List.mem_of_find?_eq_some h, by simpa using List.find?_some h⟩
  refine ⟨found, ?_⟩
  rintro ⟨hr, hk⟩
  cases hf : t.find? k with
  | none => exact absurd hk (by simpa using List.find?_eq_none.mp hf r hr)
  | some r' =>
    obtain ⟨hr', hk'⟩ := found hf
    rw [List.inj_on_of_nodup_map t.nodup hr' hr (hk'.trans hk.symm)]

theorem find?_eq_none {t : Table α key} {k : κ} :
    t.find? k = none ↔ ∀ r ∈ t.rows, key r ≠ k := by
  simp [find?]

theorem mem_iff_find? {t : Table α key} {r : α} : r ∈ t.rows ↔ t.find? (key r) = some r := by
  rw [find?_eq_some]
  simp

@[simp] theorem find?_empty (k : κ) : (empty : Table α key).find? k = none := rfl

theorem insert_eq_some {t t' : Table α key} {r : α} :
    t.insert r = some t' ↔ t.find? (key r) = none ∧ t'.rows = t.rows ++ [r] := by
  unfold insert
  split_ifs with h
  · refine ⟨fun h' => by simp at h', fun h' => ?_⟩
    obtain ⟨r', hr', hk⟩ := List.mem_map.mp h
    exact absurd hk (find?_eq_none.mp h'.1 r' hr')
  · have hnone : t.find? (key r) = none :=
      find?_eq_none.mpr fun r' hr' hk => h (hk ▸ List.mem_map_of_mem hr')
    obtain ⟨rows', hnd⟩ := t'
    simp only [Option.some.injEq, mk.injEq, hnone, true_and]
    exact eq_comm

theorem exists_insert {t : Table α key} {r : α} (h : t.find? (key r) = none) :
    ∃ t', t.insert r = some t' := by
  unfold insert
  rw [dif_neg]
  · exact ⟨_, rfl⟩
  · intro hmem
    obtain ⟨r', hr', hk⟩ := List.mem_map.mp hmem
    exact find?_eq_none.mp h r' hr' hk

theorem find?_of_insert {t t' : Table α key} {r : α} (h : t.insert r = some t') (k : κ) :
    t'.find? k = if k = key r then some r else t.find? k := by
  obtain ⟨hnone, hrows⟩ := insert_eq_some.mp h
  split_ifs with hk
  · rw [find?_eq_some, hrows]
    exact ⟨by simp, hk.symm⟩
  · have hsingle : [r].find? (fun r' => decide (key r' = k)) = none := by
      simp [eq_comm, hk]
    rw [find?, hrows, List.find?_append, hsingle, Option.or_none]
    rfl

theorem find?_update (t : Table α key) (k : κ) (f : α → α) (hf : ∀ r, key (f r) = key r)
    (k' : κ) :
    (t.update k f hf).find? k' = if k' = k then (t.find? k).map f else t.find? k' := by
  have hcomp : ((fun r => decide (key r = k')) ∘ fun r => if key r = k then f r else r) =
      fun r => decide (key r = k') := by
    funext r
    simp only [Function.comp_apply]
    split_ifs <;> simp [hf]
  have hfind : (t.update k f hf).find? k' =
      (t.find? k').map fun r => if key r = k then f r else r := by
    rw [find?, update, List.find?_map, hcomp]
    rfl
  rw [hfind]
  split_ifs with hk
  · subst hk
    cases hr : t.find? k' with
    | none => rfl
    | some r => simp [(find?_eq_some.mp hr).2]
  · cases hr : t.find? k' with
    | none => rfl
    | some r => simp [(find?_eq_some.mp hr).2, hk]

theorem ext_rows {t t' : Table α key} (h : t.rows = t'.rows) : t = t' := by
  cases t
  cases t'
  simpa using h

/-- A rewrite that changes nothing of the row it finds changes nothing. -/
theorem update_self {t : Table α key} {k : κ} {r : α} (h : t.find? k = some r) {f : α → α}
    {hf : ∀ r, key (f r) = key r} (hr : f r = r) : t.update k f hf = t := by
  refine ext_rows ?_
  rw [rows_update, ← List.map_id t.rows, List.map_map]
  refine List.map_congr_left fun r' hr' => ?_
  simp only [Function.comp_apply, id_eq]
  split_ifs with hk
  · rw [← hk, mem_iff_find?.mp hr', Option.some.injEq] at h
    rw [h, hr]
  · rfl

theorem mem_update {t : Table α key} {k : κ} {f : α → α} {hf : ∀ r, key (f r) = key r}
    {r : α} : r ∈ (t.update k f hf).rows ↔
      (∃ r' ∈ t.rows, key r' = k ∧ f r' = r) ∨ (r ∈ t.rows ∧ key r ≠ k) := by
  simp only [rows_update, List.mem_map]
  constructor
  · rintro ⟨r', hr', rfl⟩
    split_ifs with hk
    · exact Or.inl ⟨r', hr', hk, rfl⟩
    · exact Or.inr ⟨hr', hk⟩
  · rintro (⟨r', hr', hk, rfl⟩ | ⟨hr, hk⟩)
    · exact ⟨r', hr', by rw [if_pos hk]⟩
    · exact ⟨r, hr, by rw [if_neg hk]⟩

/-- A key that has a row has exactly one. -/
theorem filter_of_find? {t : Table α key} {k : κ} {r : α} (h : t.find? k = some r) :
    t.rows.filter (fun r' => key r' = k) = [r] := by
  obtain ⟨hr, hk⟩ := find?_eq_some.mp h
  have hnd : (t.rows.filter fun r' => key r' = k).Nodup :=
    (List.Nodup.of_map _ t.nodup).filter _
  refine List.perm_singleton.mp ((List.perm_ext_iff_of_nodup hnd (by simp)).mpr fun r' => ?_)
  simp only [List.mem_filter, decide_eq_true_eq, List.mem_singleton]
  constructor
  · rintro ⟨hr', hk'⟩
    exact List.inj_on_of_nodup_map t.nodup hr' hr (hk'.trans hk.symm)
  · rintro rfl
    exact ⟨hr, hk⟩

/-- A table with fewer rows than there are keys has a key that is free. -/
theorem exists_free {t : Table α key} {n : ℕ} {f : Fin n → κ} (hf : Function.Injective f)
    (h : t.rows.length < n) : ∃ k, t.find? k = none := by
  have hcard : (t.rows.map key).toFinset.card < (Finset.univ.image f).card := by
    rw [Finset.card_image_of_injective _ hf, Finset.card_univ, Fintype.card_fin,
      List.toFinset_card_of_nodup t.nodup, List.length_map]
    exact h
  obtain ⟨k, -, hk⟩ := Finset.exists_mem_notMem_of_card_lt_card hcard
  refine ⟨k, find?_eq_none.mpr fun r hr hrk => hk ?_⟩
  exact List.mem_toFinset.mpr (List.mem_map.mpr ⟨r, hr, hrk⟩)

/-! ## Sums over the rows -/

/-- The sum of `g` over the rows. -/
def sum [AddCommMonoid M] (t : Table α key) (g : α → M) : M := (t.rows.map g).sum

theorem sum_of_insert [AddCommMonoid M] {t t' : Table α key} {r : α} (h : t.insert r = some t')
    (g : α → M) : t'.sum g = t.sum g + g r := by
  rw [sum, (insert_eq_some.mp h).2, List.map_append, List.sum_append]
  simp [sum]

/-- A rewritten row changes the sum by its own difference. -/
theorem sum_update [AddCommGroup M] {t : Table α key} {k : κ} {r : α} (h : t.find? k = some r)
    (f : α → α) (hf : ∀ r, key (f r) = key r) (g : α → M) :
    (t.update k f hf).sum g = t.sum g - g r + g (f r) := by
  obtain ⟨hr, rfl⟩ := find?_eq_some.mp h
  obtain ⟨pre, post, hrows⟩ := List.append_of_mem hr
  have hnd := t.nodup
  rw [hrows, List.map_append, List.map_cons] at hnd
  have hpre : ∀ r' ∈ pre, key r' ≠ key r := fun r' hr' hk =>
    (List.nodup_append.mp hnd).2.2 _ (List.mem_map_of_mem hr') _ List.mem_cons_self hk
  have hpost : ∀ r' ∈ post, key r' ≠ key r := fun r' hr' hk =>
    (List.nodup_cons.mp (List.nodup_append.mp hnd).2.1).1 (hk ▸ List.mem_map_of_mem hr')
  have hmap : (t.update (key r) f hf).rows = pre ++ f r :: post := by
    rw [rows_update, hrows, List.map_append, List.map_cons, if_pos rfl,
      List.map_congr_left fun r' hr' => if_neg (hpre r' hr'),
      List.map_congr_left fun r' hr' => if_neg (hpost r' hr'), List.map_id', List.map_id']
  rw [sum, sum, hmap, hrows]
  simp only [List.map_append, List.map_cons, List.sum_append, List.sum_cons]
  abel

theorem sum_le_sum {t : Table α key} {g g' : α → ℕ} (hle : ∀ r ∈ t.rows, g' r ≤ g r) :
    t.sum g' ≤ t.sum g :=
  List.sum_le_sum hle

/-- A sum whose terms do not grow falls by what one of them falls by. -/
theorem sum_add_le_sum {t : Table α key} {g g' : α → ℕ} (hle : ∀ r ∈ t.rows, g' r ≤ g r) {r : α}
    (hr : r ∈ t.rows) {n : ℕ} (h : g' r + n ≤ g r) : t.sum g' + n ≤ t.sum g := by
  obtain ⟨pre, post, hrows⟩ := List.append_of_mem hr
  rw [hrows] at hle
  have hpre : (pre.map g').sum ≤ (pre.map g).sum :=
    List.sum_le_sum fun r' hr' => hle r' (List.mem_append_left _ hr')
  have hpost : (post.map g').sum ≤ (post.map g).sum :=
    List.sum_le_sum fun r' hr' => hle r' (List.mem_append_right _ (List.mem_cons_of_mem _ hr'))
  simp only [sum, hrows, List.map_append, List.map_cons, List.sum_append, List.sum_cons]
  omega

/-! ## Counts of rows -/

theorem countP_of_insert {t t' : Table α key} {r : α} (h : t.insert r = some t') (p : α → Bool) :
    t'.rows.countP p = t.rows.countP p + if p r then 1 else 0 := by
  rw [(insert_eq_some.mp h).2, List.countP_append, List.countP_singleton]

/-- A rewritten row changes a count by what it counts itself, before and after. -/
theorem countP_update {t : Table α key} {k : κ} {r : α} (h : t.find? k = some r) (f : α → α)
    (hf : ∀ r, key (f r) = key r) (p : α → Bool) :
    (t.update k f hf).rows.countP p + (if p r then 1 else 0) =
      t.rows.countP p + if p (f r) then 1 else 0 := by
  have hsum : ∀ t : Table α key, (t.rows.countP p : ℤ) = t.sum fun r => if p r then 1 else 0 := by
    intro t
    rw [sum]
    induction t.rows with
    | nil => rfl
    | cons r rows ih =>
      rw [List.countP_cons, List.map_cons, List.sum_cons, ← ih]
      push_cast
      exact add_comm _ _
  have hdiff := sum_update h f hf fun r => if p r then (1 : ℤ) else 0
  rw [← hsum, ← hsum] at hdiff
  split_ifs at hdiff ⊢ <;> omega

/-! ## Sums over keys -/

/-- A sum over the rows, as a sum over keys that include theirs. -/
theorem sum_eq_finset_sum [AddCommMonoid M] (t : Table α key) (g : α → M) (keys : Finset κ)
    (h : ∀ r ∈ t.rows, key r ∈ keys) : t.sum g = ∑ k ∈ keys, (t.find? k).elim 0 g := by
  have hrows : t.rows.map g = (t.rows.map key).map fun k => (t.find? k).elim 0 g := by
    rw [List.map_map]
    refine List.map_congr_left fun r hr => ?_
    simp [mem_iff_find?.mp hr]
  rw [sum, hrows, ← List.sum_toFinset _ t.nodup]
  refine Finset.sum_subset (fun k hk => ?_) fun k _ hk => ?_
  · obtain ⟨r, hr, rfl⟩ := List.mem_map.mp (List.mem_toFinset.mp hk)
    exact h r hr
  · have hnone : t.find? k = none := find?_eq_none.mpr fun r hr hrk =>
      hk (List.mem_toFinset.mpr (List.mem_map.mpr ⟨r, hr, hrk⟩))
    rw [hnone]
    rfl

/-- Two tables whose rows count the same for every key have the same sum. -/
theorem sum_eq_of_find? [AddCommMonoid M] {β : Type*} {key' : β → κ} (t : Table α key)
    (t' : Table β key') (g : α → M) (g' : β → M)
    (h : ∀ k, (t.find? k).elim 0 g = (t'.find? k).elim 0 g') : t.sum g = t'.sum g' := by
  have hleft : ∀ r ∈ t.rows, key r ∈ (t.rows.map key).toFinset ∪ (t'.rows.map key').toFinset :=
    fun r hr => Finset.mem_union_left _ (List.mem_toFinset.mpr (List.mem_map_of_mem hr))
  have hright : ∀ r ∈ t'.rows, key' r ∈ (t.rows.map key).toFinset ∪ (t'.rows.map key').toFinset :=
    fun r hr => Finset.mem_union_right _ (List.mem_toFinset.mpr (List.mem_map_of_mem hr))
  rw [t.sum_eq_finset_sum g _ hleft, t'.sum_eq_finset_sum g' _ hright]
  exact Finset.sum_congr rfl fun k _ => h k

/-- A table whose rows count for no more than those of another, key by key, has no larger
sum. -/
theorem sum_le_of_find? {β : Type*} {key' : β → κ} (t : Table α key) (t' : Table β key')
    (g : α → ℤ) (g' : β → ℤ) (h : ∀ k, (t.find? k).elim 0 g ≤ (t'.find? k).elim 0 g') :
    t.sum g ≤ t'.sum g' := by
  have hleft : ∀ r ∈ t.rows, key r ∈ (t.rows.map key).toFinset ∪ (t'.rows.map key').toFinset :=
    fun r hr => Finset.mem_union_left _ (List.mem_toFinset.mpr (List.mem_map_of_mem hr))
  have hright : ∀ r ∈ t'.rows, key' r ∈ (t.rows.map key).toFinset ∪ (t'.rows.map key').toFinset :=
    fun r hr => Finset.mem_union_right _ (List.mem_toFinset.mpr (List.mem_map_of_mem hr))
  rw [t.sum_eq_finset_sum g _ hleft, t'.sum_eq_finset_sum g' _ hright]
  exact Finset.sum_le_sum fun k _ => h k

end Table

end Choreography
