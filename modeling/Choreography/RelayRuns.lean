import Choreography.Relay
import Choreography.Runs

/-!
# Runs of the relays

Relays `ι` of one service over its outbox, with the transactions that insert rows. A step
is an insert, the start of a drain, one exchange of a drain, or a crash of a relay. The
environment chooses how an exchange goes : a publish may fail, also after the broker
acknowledged the message, but is reported as successful only if it did; an UPDATE may fail,
also after it was applied. The locks of a fetch are held until its transaction ends, or its
relay crashes : other fetches skip the rows, and other UPDATEs wait.

`Known` is what every run keeps : a drain is where its exchanges have led it, and what
they said is so. `outbox_kept_in_order` collects what follows for a single relay.
-/

set_option linter.unusedSectionVars false

namespace Choreography

open Prog

/-! ## Outboxes -/

/-- The rows of an outbox stay, with their contents, and PUBLISHED rows stay so. -/
def Kept (outbox outbox' : Outbox) : Prop :=
  ∀ id row, outbox.find? id = some row → ∃ row', outbox'.find? id = some row' ∧
    row'.toOutboxInsert = row.toOutboxInsert ∧ row'.createdAt = row.createdAt ∧
    (row.status = .published → row'.status = .published)

theorem Kept.refl (outbox : Outbox) : Kept outbox outbox :=
  fun _ row h => ⟨row, h, rfl, rfl, id⟩

theorem Kept.trans {outbox outbox' outbox'' : Outbox} (h : Kept outbox outbox')
    (h' : Kept outbox' outbox'') : Kept outbox outbox'' := by
  intro id row hrow
  obtain ⟨row', hrow', hins, hat, hst⟩ := h id row hrow
  obtain ⟨row'', hrow'', hins', hat', hst'⟩ := h' id row' hrow'
  exact ⟨row'', hrow'', hins'.trans hins, hat'.trans hat, fun hp => hst' (hst hp)⟩

theorem kept_insertOutbox {stamp : Stamp} {outbox outbox' : Outbox} {ob : OutboxInsert}
    (h : insertOutbox stamp outbox ob = .ok outbox') : Kept outbox outbox' := by
  obtain ⟨-, hrows⟩ := insertOutbox_eq_ok.mp h
  intro id row hrow
  obtain ⟨hmem, hid⟩ := Table.find?_eq_some.mp hrow
  refine ⟨row, Table.find?_eq_some.mpr ⟨?_, hid⟩, rfl, rfl, fun hp => hp⟩
  rw [hrows]
  exact List.mem_append_left _ hmem

theorem kept_update (outbox : Outbox) (id : Uuid) (f : OutboxRow → OutboxRow)
    (hf : ∀ r, (f r).id = r.id) (hkeep : ∀ r, (f r).toOutboxInsert = r.toOutboxInsert ∧
      (f r).createdAt = r.createdAt ∧ (r.status = .published → (f r).status = .published)) :
    Kept outbox (outbox.update id f hf) := by
  intro id' row hrow
  rw [Table.find?_update]
  split_ifs with hid
  · subst hid
    exact ⟨f row, by rw [hrow]; rfl, (hkeep row).1, (hkeep row).2.1, (hkeep row).2.2⟩
  · exact ⟨row, hrow, rfl, rfl, fun hp => hp⟩

theorem kept_markPublished (outbox : Outbox) (id : Uuid) : Kept outbox (markPublished outbox id) :=
  kept_update outbox id _ _ fun _ => ⟨rfl, rfl, fun _ => rfl⟩

theorem kept_markFailed (outbox : Outbox) (id : Uuid) : Kept outbox (markFailed outbox id) :=
  kept_update outbox id _ _ fun _ => ⟨rfl, rfl, fun hp => hp⟩

/-! ## States -/

/-- A drain : what is left of it, what it has exchanged, and the rows that were PENDING at
its fetch. -/
structure Drain where
  prog : Proc Drained
  trace : Trace Request.Answer
  atFetch : List Uuid

/-- The rows that a drain has locked, in a fetch that is not over. -/
def Drain.locked (d : Drain) : List Uuid :=
  match d.trace with
  | [⟨.selectPending _, some rows⟩] => rows.map OutboxRow.id
  | _ => []

/-- The relays `ι` of a service, with its outbox and with what the broker has of it. -/
structure Relays (ι : Type) where
  outbox : Outbox
  /-- The rows whose message the broker has acknowledged, once for each time. -/
  acked : List OutboxRow
  /-- The current drain of a relay, or its last. -/
  drain : ι → Option Drain

/-- How the environment answers a request. -/
structure Choice where
  /-- The request succeeds. -/
  ok : Bool
  /-- The request fails, but after it took effect. -/
  applied : Bool
  /-- The rows of a SELECT, in the order that the database finds them. -/
  plan : List OutboxRow

inductive RelayLabel (ι : Type)
  | insert (stamp : Stamp) (ob : OutboxInsert)
  | start (i : ι)
  | act (i : ι) (choice : Choice)
  | crash (i : ι)

/-- `LIMIT` takes a non-negative bigint. -/
def limitRows (limit : ℤ) (rows : List OutboxRow) : Option (List OutboxRow) :=
  if 0 ≤ limit ∧ limit < 2 ^ 63 then some (rows.take limit.toNat) else none

namespace Relays

variable {ι : Type} [Fintype ι] [DecidableEq ι]

/-- A new deployment. -/
def init : Relays ι := ⟨Table.empty, [], fun _ => none⟩

def lockedBy (w : Relays ι) (i : ι) : List Uuid :=
  match w.drain i with
  | some d => d.locked
  | none => []

/-- Another relay holds the lock of the row. -/
def Locked (w : Relays ι) (i : ι) (id : Uuid) : Prop := ∃ j, j ≠ i ∧ id ∈ w.lockedBy j

instance (w : Relays ι) (i : ι) (id : Uuid) : Decidable (w.Locked i id) :=
  inferInstanceAs (Decidable (∃ j, j ≠ i ∧ id ∈ w.lockedBy j))

/-- The rows that a fetch can see. -/
def visible (w : Relays ι) (i : ι) : List OutboxRow :=
  w.outbox.rows.filter fun row => row.status = .pending ∧ ¬w.Locked i row.id

/-- The database finds the rows, by `created_at`. -/
def Finds (w : Relays ι) (i : ι) (plan : List OutboxRow) : Prop :=
  plan.Perm (w.visible i) ∧ plan.Pairwise fun a b => a.createdAt ≤ b.createdAt

instance (w : Relays ι) (i : ι) (plan : List OutboxRow) : Decidable (w.Finds i plan) :=
  inferInstanceAs (Decidable (_ ∧ _))

/-- The answer to a request, with the outbox and the acknowledged messages after it. -/
def answer (w : Relays ι) (i : ι) (c : Choice) :
    (q : Request) → q.Answer × Outbox × List OutboxRow
  | .selectPending limit =>
    (if c.ok = true ∧ w.Finds i c.plan then limitRows limit c.plan else none, w.outbox, w.acked)
  | .commit => (c.ok, w.outbox, w.acked)
  | .publish row => (c.ok, w.outbox, if c.ok || c.applied then row :: w.acked else w.acked)
  | .markPublished id =>
    (c.ok, if c.ok || c.applied then markPublished w.outbox id else w.outbox, w.acked)
  | .markFailed id =>
    (c.ok, if c.ok || c.applied then markFailed w.outbox id else w.outbox, w.acked)

/-- An UPDATE waits for the lock of its row. -/
def Waits (w : Relays ι) (i : ι) : Request → Prop
  | .markPublished id | .markFailed id => w.Locked i id
  | _ => False

instance (w : Relays ι) (i : ι) : (q : Request) → Decidable (w.Waits i q)
  | .markPublished id | .markFailed id => inferInstanceAs (Decidable (w.Locked i id))
  | .selectPending _ | .commit | .publish _ => inferInstanceAs (Decidable False)

/-- The rows that are PENDING. -/
def pendingIds (w : Relays ι) : List Uuid :=
  (w.outbox.rows.filter fun row => row.status = .pending).map OutboxRow.id

/-- The rows that were PENDING at the fetch of a drain, after a request of it. -/
def fetchIds (w : Relays ι) (atFetch : List Uuid) : Request → List Uuid
  | .selectPending _ => w.pendingIds
  | _ => atFetch

/-- A drain is over when it has returned. -/
def idle (w : Relays ι) (i : ι) : Bool :=
  match w.drain i with
  | some ⟨.call _ _, _, _⟩ => false
  | _ => true

def step (svc : Service) (conf : ι → Relay) (w : Relays ι) : RelayLabel ι → Relays ι
  | .insert stamp ob =>
    match insertOutbox stamp w.outbox ob with
    | .ok outbox => { w with outbox := outbox }
    | .error _ => w
  | .start i =>
    if w.idle i then
      { w with drain := Function.update w.drain i (some ⟨svc.drainOnce (conf i), [], []⟩) }
    else w
  | .act i c =>
    match w.drain i with
    | some ⟨.call q k, τ, atFetch⟩ =>
      if w.Waits i q then w
      else
        { outbox := (w.answer i c q).2.1
          acked := (w.answer i c q).2.2
          drain := Function.update w.drain i
            (some ⟨k (w.answer i c q).1, τ ++ [⟨q, (w.answer i c q).1⟩], w.fetchIds atFetch q⟩) }
    | _ => w
  | .crash i => { w with drain := Function.update w.drain i none }

/-! ## What a step does -/

variable {svc : Service} {conf : ι → Relay} {w : Relays ι}

/-- The world after the exchange of a drain. -/
def exchange (w : Relays ι) (i : ι) (c : Choice) (q : Request) (k : q.Answer → Proc Drained)
    (τ : Trace Request.Answer) (atFetch : List Uuid) : Relays ι where
  outbox := (w.answer i c q).2.1
  acked := (w.answer i c q).2.2
  drain := Function.update w.drain i
    (some ⟨k (w.answer i c q).1, τ ++ [⟨q, (w.answer i c q).1⟩], w.fetchIds atFetch q⟩)

/-- A step does nothing, inserts a row, starts or ends a drain, or is one exchange. -/
theorem step_cases (svc : Service) (conf : ι → Relay) (w : Relays ι) (l : RelayLabel ι) :
    w.step svc conf l = w ∨
      (∃ stamp ob outbox, l = .insert stamp ob ∧ insertOutbox stamp w.outbox ob = .ok outbox ∧
        w.step svc conf l = { w with outbox := outbox }) ∨
      (∃ i, l = .start i ∧ w.idle i = true ∧ w.step svc conf l = { w with
        drain := Function.update w.drain i (some ⟨svc.drainOnce (conf i), [], []⟩) }) ∨
      (∃ i, l = .crash i ∧
        w.step svc conf l = { w with drain := Function.update w.drain i none }) ∨
      ∃ i c q k τ atFetch, l = .act i c ∧ w.drain i = some ⟨.call q k, τ, atFetch⟩ ∧
        ¬w.Waits i q ∧ w.step svc conf l = w.exchange i c q k τ atFetch := by
  cases l with
  | insert stamp ob =>
    simp only [step]
    split
    next outbox hins => exact Or.inr (Or.inl ⟨stamp, ob, outbox, rfl, hins, rfl⟩)
    next => exact Or.inl rfl
  | start i =>
    simp only [step]
    split_ifs with hi
    · exact Or.inr (Or.inr (Or.inl ⟨i, rfl, hi, rfl⟩))
    · exact Or.inl rfl
  | crash i => exact Or.inr (Or.inr (Or.inr (Or.inl ⟨i, rfl, rfl⟩)))
  | act i c =>
    simp only [step]
    split
    next q k τ atFetch hd =>
      split_ifs with hw
      · exact Or.inl rfl
      · exact Or.inr (Or.inr (Or.inr (Or.inr ⟨i, c, q, k, τ, atFetch, rfl, hd, hw, rfl⟩)))
    next => exact Or.inl rfl

theorem kept_answer (w : Relays ι) (i : ι) (c : Choice) (q : Request) :
    Kept w.outbox (w.answer i c q).2.1 := by
  cases q with
  | markPublished id =>
    simp only [answer]
    split_ifs
    · exact kept_markPublished w.outbox id
    · exact .refl _
  | markFailed id =>
    simp only [answer]
    split_ifs
    · exact kept_markFailed w.outbox id
    · exact .refl _
  | _ => exact .refl _

theorem acked_answer (w : Relays ι) (i : ι) (c : Choice) (q : Request) :
    w.acked ⊆ (w.answer i c q).2.2 := by
  cases q with
  | publish row =>
    simp only [answer]
    split_ifs
    · exact List.subset_cons_self _ _
    · exact List.Subset.refl _
  | _ => exact List.Subset.refl _

/-- Rows stay, and PUBLISHED rows stay so. -/
theorem kept_step (svc : Service) (conf : ι → Relay) (w : Relays ι) (l : RelayLabel ι) :
    Kept w.outbox (w.step svc conf l).outbox := by
  obtain heq | ⟨stamp, ob, outbox, -, hins, heq⟩ | ⟨i, -, -, heq⟩ | ⟨i, -, heq⟩ |
    ⟨i, c, q, k, τ, a, -, -, -, heq⟩ := step_cases svc conf w l <;> rw [heq]
  · exact .refl _
  · exact kept_insertOutbox hins
  · exact .refl _
  · exact .refl _
  · exact kept_answer w i c q

theorem kept_run (svc : Service) (conf : ι → Relay) (w : Relays ι) (ls : List (RelayLabel ι)) :
    Kept w.outbox (runFrom (step svc conf) w ls).outbox :=
  invariant_runFrom (I := fun w' : Relays ι => Kept w.outbox w'.outbox)
    (fun w' l h => h.trans (kept_step svc conf w' l)) ls (.refl _)

/-! ## What is known of a drain -/

/-- The row is PUBLISHED. -/
def Published (outbox : Outbox) (id : Uuid) : Prop :=
  (outbox.find? id).map OutboxRow.status = some .published

theorem Published.mono {outbox outbox' : Outbox} (h : Kept outbox outbox') {id : Uuid}
    (hp : Published outbox id) : Published outbox' id := by
  obtain ⟨row, hrow, hst⟩ := Option.map_eq_some_iff.mp hp
  obtain ⟨row', hrow', -, -, hst'⟩ := h id row hrow
  rw [Published, hrow', Option.map_some, hst' hst]

/-- A row that was fetched is in the outbox. -/
def Holds (outbox : Outbox) (row : OutboxRow) : Prop :=
  ∃ row', outbox.find? row.id = some row' ∧ row'.toOutboxInsert = row.toOutboxInsert

theorem Holds.mono {outbox outbox' : Outbox} (h : Kept outbox outbox') {row : OutboxRow}
    (hr : Holds outbox row) : Holds outbox' row := by
  obtain ⟨row', hrow', hins⟩ := hr
  obtain ⟨row'', hrow'', hins', -⟩ := h row.id row' hrow'
  exact ⟨row'', hrow'', hins'.trans hins⟩

/-- A drain is where its exchanges have led it, and what they said is so. -/
structure Known (svc : Service) (relay : Relay) (outbox : Outbox) (acked : List OutboxRow)
    (d : Drain) : Prop where
  reaches : Reaches (svc.drainOnce relay) d.trace d.prog
  rows : ∀ n (rows : List OutboxRow), ⟨.selectPending n, some rows⟩ ∈ d.trace →
    (∀ row ∈ rows, Holds outbox row) ∧ (rows.map OutboxRow.id).Nodup ∧
      rows.Pairwise fun a b => a.createdAt ≤ b.createdAt
  acked : ∀ row, ⟨.publish row, true⟩ ∈ d.trace → row ∈ acked
  marked : ∀ id, ⟨.markPublished id, true⟩ ∈ d.trace → Published outbox id

theorem Known.at {relay : Relay} {outbox : Outbox} {acked : List OutboxRow} {d : Drain}
    (h : Known svc relay outbox acked d) : At svc.failure relay.batchSize d.trace d.prog := by
  refine at_of_reaches ?_
  rw [← Service.drainOnce_eq]
  exact h.reaches

theorem Known.mono {relay : Relay} {outbox outbox' : Outbox} {acked acked' : List OutboxRow}
    {d : Drain} (h : Known svc relay outbox acked d) (hk : Kept outbox outbox')
    (ha : acked ⊆ acked') : Known svc relay outbox' acked' d where
  reaches := h.reaches
  rows n rows hm := by
    obtain ⟨hrows, hnd, hsorted⟩ := h.rows n rows hm
    exact ⟨fun row hrow => (hrows row hrow).mono hk, hnd, hsorted⟩
  acked row hm := ha (h.acked row hm)
  marked id hm := (h.marked id hm).mono hk

theorem known_start (svc : Service) (relay : Relay) (outbox : Outbox) (acked : List OutboxRow) :
    Known svc relay outbox acked ⟨svc.drainOnce relay, [], []⟩ where
  reaches := .refl _
  rows _ _ hm := nomatch hm
  acked _ hm := nomatch hm
  marked _ hm := nomatch hm

/-- The rows that a SELECT returns are rows of the outbox, by `created_at`. -/
theorem found_rows {i : ι} {c : Choice} {n : ℤ} {rows : List OutboxRow}
    (h : (w.answer i c (.selectPending n)).1 = some rows) :
    0 ≤ n ∧ rows = c.plan.take n.toNat ∧ w.Finds i c.plan := by
  simp only [answer] at h
  split_ifs at h with hc
  unfold limitRows at h
  split_ifs at h with hn
  exact ⟨hn.1, (Option.some.inj h).symm, hc.2⟩

theorem Finds.nodup {i : ι} {plan : List OutboxRow} (h : w.Finds i plan) :
    (plan.map OutboxRow.id).Nodup := by
  refine (h.1.map OutboxRow.id).nodup_iff.mpr ?_
  exact w.outbox.nodup.sublist (List.filter_sublist.map _)

theorem Finds.mem {i : ι} {plan : List OutboxRow} (h : w.Finds i plan) {row : OutboxRow}
    (hr : row ∈ plan) : w.outbox.find? row.id = some row ∧ row.status = .pending ∧
      ¬w.Locked i row.id := by
  have hmem := h.1.mem_iff.mp hr
  simp only [visible, List.mem_filter, decide_eq_true_eq] at hmem
  exact ⟨Table.mem_iff_find?.mp hmem.1, hmem.2⟩

theorem published_markPublished {outbox : Outbox} {id id' : Uuid} :
    Published (markPublished outbox id) id' ↔
      Published outbox id' ∨ id' = id ∧ outbox.find? id ≠ none := by
  rw [Published, Published, markPublished, Table.find?_update]
  by_cases hid : id' = id
  · subst hid
    cases outbox.find? id' <;> simp
  · simp [hid]

theorem published_markFailed {outbox : Outbox} {id id' : Uuid} :
    Published (markFailed outbox id) id' ↔ Published outbox id' := by
  rw [Published, Published, markFailed, Table.find?_update]
  by_cases hid : id' = id
  · subst hid
    cases outbox.find? id' <;> simp
  · simp [hid]

/-- The row that a drain marks next is in the outbox, and its message is acknowledged. -/
theorem Known.marking {relay : Relay} {outbox : Outbox} {acked : List OutboxRow} {d : Drain}
    (h : Known svc relay outbox acked d) {id : Uuid}
    (hd : d.prog.next = some (.markPublished id)) :
    ∃ row ∈ acked, row.id = id ∧ Holds outbox row := by
  obtain ⟨done, row, rest, rfl, hτ⟩ := h.at.markPublished hd
  refine ⟨row, h.acked row ?_, rfl, (h.rows relay.batchSize (done ++ row :: rest) ?_).1 row ?_⟩
  · rw [hτ]
    simp
  · rw [hτ]
    simp [fetched]
  · simp

theorem Known.exchange {i : ι} {c : Choice} {q : Request} {k : q.Answer → Proc Drained}
    {τ : Trace Request.Answer} {atFetch : List Uuid}
    (h : Known svc (conf i) w.outbox w.acked ⟨.call q k, τ, atFetch⟩) :
    Known svc (conf i) (w.answer i c q).2.1 (w.answer i c q).2.2
      ⟨k (w.answer i c q).1, τ ++ [⟨q, (w.answer i c q).1⟩], w.fetchIds atFetch q⟩ := by
  have hold := h.mono (kept_answer w i c q) (acked_answer w i c q)
  refine ⟨h.reaches.snoc _, ?_, ?_, ?_⟩
  · intro n rows hm
    obtain hm | hm := List.mem_append.mp hm
    · exact hold.rows n rows hm
    · cases q with
      | selectPending m =>
        obtain ⟨-, hrows⟩ := Sigma.mk.inj_iff.mp (List.mem_singleton.mp hm)
        obtain ⟨-, rfl, hfinds⟩ := found_rows (eq_of_heq hrows).symm
        refine ⟨fun row hrow => ?_, ?_, ?_⟩
        · exact ⟨row, (hfinds.mem (List.mem_of_mem_take hrow)).1, rfl⟩
        · exact hfinds.nodup.sublist ((List.take_sublist _ _).map _)
        · exact hfinds.2.sublist (List.take_sublist _ _)
      | _ => simp at hm
  · intro row hm
    obtain hm | hm := List.mem_append.mp hm
    · exact hold.acked row hm
    · cases q with
      | publish row' =>
        obtain ⟨hrow, hok⟩ := Sigma.mk.inj_iff.mp (List.mem_singleton.mp hm)
        obtain rfl := RelayRequest.publish.inj hrow
        have hok : true = c.ok := eq_of_heq hok
        simp [answer, ← hok]
      | _ => simp at hm
  · intro id hm
    obtain hm | hm := List.mem_append.mp hm
    · exact hold.marked id hm
    · cases q with
      | markPublished id' =>
        obtain ⟨hid, hok⟩ := Sigma.mk.inj_iff.mp (List.mem_singleton.mp hm)
        obtain rfl := RelayRequest.markPublished.inj hid
        obtain ⟨row, -, rfl, row', hrow', -⟩ := h.marking rfl
        have happlied : (c.ok || c.applied) = true := by
          rw [← (eq_of_heq hok : true = c.ok), Bool.true_or]
        simp only [answer, if_pos happlied]
        exact published_markPublished.mpr (Or.inr ⟨rfl, by rw [hrow']; simp⟩)
      | _ => simp at hm

/-- Everything that is known of the drains of a world. -/
def AllKnown (svc : Service) (conf : ι → Relay) (w : Relays ι) : Prop :=
  ∀ i d, w.drain i = some d → Known svc (conf i) w.outbox w.acked d

/-- The drains of a world in which only the one of `i` has changed. -/
theorem AllKnown.update (h : AllKnown svc conf w) {w' : Relays ι} {i : ι} {d : Option Drain}
    (hk : Kept w.outbox w'.outbox) (ha : w.acked ⊆ w'.acked)
    (hdrain : w'.drain = Function.update w.drain i d)
    (hd : ∀ d', d = some d' → Known svc (conf i) w'.outbox w'.acked d') :
    AllKnown svc conf w' := by
  intro j d' hd'
  rw [hdrain] at hd'
  by_cases hj : j = i
  · subst hj
    rw [Function.update_self] at hd'
    exact hd d' hd'
  · rw [Function.update_of_ne hj] at hd'
    exact (h j d' hd').mono hk ha

theorem AllKnown.step (h : AllKnown svc conf w) (l : RelayLabel ι) :
    AllKnown svc conf (w.step svc conf l) := by
  obtain heq | ⟨stamp, ob, outbox, -, hins, heq⟩ | ⟨i, -, -, heq⟩ | ⟨i, -, heq⟩ |
    ⟨i, c, q, k, τ, a, -, hd, -, heq⟩ := step_cases svc conf w l <;> rw [heq]
  · exact h
  · exact fun j d hd => (h j d hd).mono (kept_insertOutbox hins) (List.Subset.refl _)
  · refine h.update (.refl _) (List.Subset.refl _) rfl fun d hd => ?_
    rw [← Option.some.inj hd]
    exact known_start svc (conf i) w.outbox w.acked
  · exact h.update (.refl _) (List.Subset.refl _) rfl fun d hd => nomatch hd
  · refine h.update (kept_answer w i c q) (acked_answer w i c q) rfl fun d hd' => ?_
    rw [← Option.some.inj hd']
    exact (h i _ hd).exchange

theorem allKnown_run (svc : Service) (conf : ι → Relay) (ls : List (RelayLabel ι)) :
    AllKnown svc conf (runFrom (step svc conf) init ls) :=
  invariant_runFrom (I := AllKnown svc conf) (fun _ l h => h.step l) ls fun _ _ hd => nomatch hd

/-! ## Published rows are acknowledged -/

/-- The message of every PUBLISHED row is acknowledged. -/
def Acknowledged (outbox : Outbox) (acked : List OutboxRow) : Prop :=
  ∀ id row, outbox.find? id = some row → row.status = .published →
    ∃ m ∈ acked, m.id = id ∧ m.record = row.record

theorem Acknowledged.mono {outbox : Outbox} {acked acked' : List OutboxRow}
    (h : Acknowledged outbox acked) (ha : acked ⊆ acked') : Acknowledged outbox acked' := by
  intro id row hrow hst
  obtain ⟨m, hm, hmrow⟩ := h id row hrow hst
  exact ⟨m, ha hm, hmrow⟩

theorem Acknowledged.insertOutbox {stamp : Stamp} {outbox outbox' : Outbox} {ob : OutboxInsert}
    {acked : List OutboxRow} (h : Acknowledged outbox acked)
    (hins : insertOutbox stamp outbox ob = .ok outbox') : Acknowledged outbox' acked := by
  obtain ⟨-, hrows⟩ := insertOutbox_eq_ok.mp hins
  intro id row hrow hst
  obtain ⟨hmem, hid⟩ := Table.find?_eq_some.mp hrow
  rw [hrows, List.mem_append, List.mem_singleton] at hmem
  obtain hmem | rfl := hmem
  · exact h id row (Table.find?_eq_some.mpr ⟨hmem, hid⟩) hst
  · exact nomatch hst

/-- An UPDATE of a row whose message is acknowledged, or that leaves its status. -/
theorem Acknowledged.update {outbox : Outbox} {acked : List OutboxRow}
    (h : Acknowledged outbox acked) (id : Uuid) (f : OutboxRow → OutboxRow)
    (hf : ∀ r, (f r).id = r.id) (hins : ∀ r, (f r).toOutboxInsert = r.toOutboxInsert)
    (hst : (∀ r, (f r).status = r.status) ∨ ∃ m ∈ acked, m.id = id ∧ Holds outbox m) :
    Acknowledged (outbox.update id f hf) acked := by
  intro id' row hrow hpub
  rw [Table.find?_update] at hrow
  split_ifs at hrow with hid
  · subst hid
    obtain ⟨row₀, hrow₀, rfl⟩ := Option.map_eq_some_iff.mp hrow
    have hrec : (f row₀).record = row₀.record := congrArg OutboxInsert.record (hins row₀)
    rw [hrec]
    obtain hsame | ⟨m, hm, rfl, row', hrow', hins'⟩ := hst
    · exact h id' row₀ hrow₀ ((hsame row₀).symm.trans hpub)
    · obtain rfl : row' = row₀ := Option.some.inj (hrow'.symm.trans hrow₀)
      exact ⟨m, hm, rfl, (congrArg OutboxInsert.record hins').symm⟩
  · exact h id' row hrow hpub

theorem AllKnown.acknowledged_step (hk : AllKnown svc conf w)
    (h : Acknowledged w.outbox w.acked) (l : RelayLabel ι) :
    Acknowledged (w.step svc conf l).outbox (w.step svc conf l).acked := by
  obtain heq | ⟨stamp, ob, outbox, -, hins, heq⟩ | ⟨i, -, -, heq⟩ | ⟨i, -, heq⟩ |
    ⟨i, c, q, k, τ, a, -, hd, -, heq⟩ := step_cases svc conf w l <;> rw [heq]
  · exact h
  · exact h.insertOutbox hins
  · exact h
  · exact h
  · cases q with
    | markPublished id =>
      simp only [Relays.exchange, answer]
      split_ifs
      · exact h.update id _ _ (fun _ => rfl) (Or.inr ((hk i _ hd).marking rfl))
      · exact h
    | markFailed id =>
      simp only [Relays.exchange, answer]
      split_ifs
      · exact h.update id _ _ (fun _ => rfl) (Or.inl fun _ => rfl)
      · exact h
    | publish row => exact h.mono (acked_answer w i c (.publish row))
    | _ => exact h

theorem acknowledged_run (svc : Service) (conf : ι → Relay) (ls : List (RelayLabel ι)) :
    Acknowledged (runFrom (step svc conf) init ls).outbox
      (runFrom (step svc conf) init ls).acked := by
  refine (invariant_runFrom
    (I := fun w : Relays ι => AllKnown svc conf w ∧ Acknowledged w.outbox w.acked)
    (fun w l h => ⟨h.1.step l, h.1.acknowledged_step h.2 l⟩) ls ⟨?_, ?_⟩).2
  · exact fun _ _ hd => nomatch hd
  · exact fun _ _ hrow => nomatch hrow

/-! ## Whole batches -/

/-- A drain of a single relay that has fetched fewer rows than its batch size has
fetched all that were PENDING. -/
def Exhausts (d : Drain) : Prop :=
  ∀ n (rows : List OutboxRow), ⟨.selectPending n, some rows⟩ ∈ d.trace →
    (rows.length : ℤ) < n → ∀ id ∈ d.atFetch, id ∈ rows.map OutboxRow.id

theorem AllKnown.exhausts_step [Subsingleton ι] (hk : AllKnown svc conf w)
    (h : ∀ i d, w.drain i = some d → Exhausts d) (l : RelayLabel ι) (i : ι) (d : Drain)
    (hd : (w.step svc conf l).drain i = some d) : Exhausts d := by
  obtain heq | ⟨stamp, ob, outbox, -, hins, heq⟩ | ⟨j, -, -, heq⟩ | ⟨j, -, heq⟩ |
    ⟨j, c, q, k, τ, a, -, hd', -, heq⟩ := step_cases svc conf w l <;> rw [heq] at hd
  · exact h i d hd
  · exact h i d hd
  · obtain rfl : i = j := Subsingleton.elim i j
    rw [← Option.some.inj ((Function.update_self i _ _).symm.trans hd)]
    exact fun _ _ hm => nomatch hm
  · obtain rfl : i = j := Subsingleton.elim i j
    exact nomatch (Function.update_self i _ _).symm.trans hd
  · obtain rfl : i = j := Subsingleton.elim i j
    rw [← Option.some.inj ((Function.update_self i _ _).symm.trans hd)]
    have hold := h i _ hd'
    intro n rows hm hlt
    cases q with
    | selectPending m =>
      -- a drain has one fetch, so this is the one
      obtain ⟨-, rfl⟩ := (hk i _ hd').at.selectPending rfl
      obtain ⟨hn, hrows⟩ := Sigma.mk.inj_iff.mp (List.mem_singleton.mp hm)
      obtain rfl := RelayRequest.selectPending.inj hn
      obtain ⟨hpos, rfl, hfinds⟩ := found_rows (eq_of_heq hrows).symm
      have hall : c.plan.take n.toNat = c.plan := by
        rw [List.length_take] at hlt
        exact List.take_of_length_le (by omega)
      rw [hall]
      intro id hid
      obtain ⟨row, hrow, rfl⟩ := List.mem_map.mp hid
      refine List.mem_map_of_mem (hfinds.1.mem_iff.mpr ?_)
      simp only [List.mem_filter, decide_eq_true_eq] at hrow
      simp only [visible, List.mem_filter, decide_eq_true_eq]
      refine ⟨hrow.1, hrow.2, ?_⟩
      rintro ⟨j, hj, -⟩
      exact hj (Subsingleton.elim j i)
    | _ =>
      obtain hm | hm := List.mem_append.mp hm
      · exact hold n rows hm hlt
      · simp at hm

theorem exhausts_run [Subsingleton ι] (svc : Service) (conf : ι → Relay)
    (ls : List (RelayLabel ι)) (i : ι) (d : Drain)
    (hd : (runFrom (step svc conf) init ls).drain i = some d) : Exhausts d := by
  refine (invariant_runFrom
    (I := fun w : Relays ι => AllKnown svc conf w ∧ ∀ i d, w.drain i = some d → Exhausts d)
    (fun w l h => ⟨h.1.step l, h.1.exhausts_step h.2 l⟩) ls ⟨?_, ?_⟩).2 i d hd
  · exact fun _ _ hd => nomatch hd
  · exact fun _ _ hd => nomatch hd

/-! ## A single relay -/

/-- The outbox and the relay of a service after the run `ls` of a new deployment. -/
structure Delivers (svc : Service) (relay : Relay) (ls : List (RelayLabel Unit)) : Prop where
  /-- No row disappears, or goes back from PUBLISHED. -/
  kept : ∀ row ∈ (runFrom (step svc fun _ => relay) init ls).outbox.rows, ∀ ls',
    ∃ row' ∈ (runFrom (step svc fun _ => relay) init (ls ++ ls')).outbox.rows, row'.id = row.id ∧
      row'.toOutboxInsert = row.toOutboxInsert ∧
      (row.status = .published → row'.status = .published)
  /-- The message of a PUBLISHED row was acknowledged. -/
  acknowledged : ∀ row ∈ (runFrom (step svc fun _ => relay) init ls).outbox.rows,
    row.status = .published → ∃ m ∈ (runFrom (step svc fun _ => relay) init ls).acked,
      m.id = row.id ∧ m.record = row.record
  /-- The rows sent by a drain are the first of its batch, by `created_at`, and when it
  sends the next one, those before it are acknowledged and marked. -/
  ordered : ∀ d, (runFrom (step svc fun _ => relay) init ls).drain () = some d → ∀ row,
    d.prog.next = some (.publish row) → ∃ done rest,
      ⟨.selectPending relay.batchSize, some (done ++ row :: rest)⟩ ∈ d.trace ∧
      (done ++ row :: rest).Pairwise (fun a b => a.createdAt ≤ b.createdAt) ∧
      sends d.trace = done ∧
      ∀ r ∈ done, ⟨.publish r, true⟩ ∈ d.trace ∧ ⟨.markPublished r.id, true⟩ ∈ d.trace ∧
        r ∈ (runFrom (step svc fun _ => relay) init ls).acked ∧
        Published (runFrom (step svc fun _ => relay) init ls).outbox r.id
  /-- A drain that returns without an error after fetching fewer rows than its batch size
  leaves none of the rows PENDING that were PENDING at its fetch. -/
  drained : ∀ d n, (runFrom (step svc fun _ => relay) init ls).drain () = some d →
    d.prog = ret ⟨n, none⟩ → ∀ rows : List OutboxRow,
      ⟨.selectPending relay.batchSize, some rows⟩ ∈ d.trace →
      (rows.length : ℤ) < relay.batchSize → ∀ id ∈ d.atFetch,
        Published (runFrom (step svc fun _ => relay) init ls).outbox id

end Relays

open Relays in
theorem outbox_kept_in_order (svc : Service) (relay : Relay) (ls : List (RelayLabel Unit)) :
    Delivers svc relay ls := by
  have hknown := allKnown_run svc (fun _ => relay) ls
  constructor
  case kept =>
    intro row hrow ls'
    rw [runFrom_append]
    obtain ⟨row', hrow', hins, -, hst⟩ := kept_run svc (fun _ => relay)
      (runFrom (Relays.step svc fun _ => relay) init ls) ls' row.id row
      (Table.mem_iff_find?.mp hrow)
    obtain ⟨hmem, hid⟩ := Table.find?_eq_some.mp hrow'
    exact ⟨row', hmem, hid, hins, hst⟩
  case acknowledged =>
    intro row hrow hst
    exact acknowledged_run svc (fun _ => relay) ls row.id row (Table.mem_iff_find?.mp hrow) hst
  case ordered =>
    intro d hd row hnext
    have hk := hknown () d hd
    obtain ⟨done, rest, hτ⟩ := hk.at.publish hnext
    have hsel : ⟨.selectPending relay.batchSize, some (done ++ row :: rest)⟩ ∈ d.trace := by
      rw [hτ]
      simp [fetched]
    refine ⟨done, rest, hsel, (hk.rows _ _ hsel).2.2, ?_, fun r hr => ?_⟩
    · rw [hτ, sends, List.filterMap_append]
      exact sends_relayed done
    · obtain ⟨hpub, hmark⟩ := mem_relayed hr
      have hpub' : ⟨.publish r, true⟩ ∈ d.trace := by
        rw [hτ]
        exact List.mem_append_right _ hpub
      have hmark' : ⟨.markPublished r.id, true⟩ ∈ d.trace := by
        rw [hτ]
        exact List.mem_append_right _ hmark
      exact ⟨hpub', hmark', hk.acked r hpub', hk.marked r.id hmark'⟩
  case drained =>
    intro d n hd hret rows hsel hlt id hid
    have hk := hknown () d hd
    obtain ⟨rows', hτ⟩ := hk.at.done hret
    have hmem := exhausts_run svc (fun _ => relay) ls () d hd _ rows hsel hlt id hid
    obtain rfl : rows = rows' := eq_of_mem_fetched (hτ ▸ hsel)
    obtain ⟨r, hr, rfl⟩ := List.mem_map.mp hmem
    refine hk.marked r.id ?_
    rw [hτ]
    exact List.mem_append_right _ (mem_relayed hr).2

end Choreography
