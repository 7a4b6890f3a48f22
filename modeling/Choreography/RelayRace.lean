import Choreography.RelayRuns

/-!
# Relays side by side

Several relays of one service over the same outbox, without crashes and without failed
publishes and marks. A row is in flight from the end of the transaction that fetched it
until it is marked. Its lock is gone by then, and its status is still PENDING : another
relay can fetch it again, and send it again.

`work` counts, for a row, how often it is sent and how often it is still to be sent, and
`held` whether it is PUBLISHED and in how many drains it is in flight. Only the end of a
fetch adds to `work` (`accounts`), so a run sends every row once exactly if no fetch ends
with a row that is in flight elsewhere (`sentOnce_iff`).
-/

set_option linter.unusedSectionVars false

namespace Choreography

open Prog

/-! ## What a drain has to do -/

/-- The rows that a drain has fetched, after the end of its transaction. -/
def batchOf : Trace Request.Answer → List OutboxRow
  | ⟨.selectPending _, some rows⟩ :: ⟨.commit, true⟩ :: _ => rows
  | _ => []

/-- The rows that a drain has marked. -/
def marks (τ : Trace Request.Answer) : List Uuid :=
  τ.filterMap fun e => match e with
    | ⟨.markPublished id, true⟩ => some id
    | _ => none

/-- The rows that a drain has yet to send. -/
def due (τ : Trace Request.Answer) : List Uuid :=
  ((batchOf τ).drop (sends τ).length).map OutboxRow.id

/-- The rows that a drain has yet to mark. -/
def inFlight (τ : Trace Request.Answer) : List Uuid :=
  ((batchOf τ).drop (marks τ).length).map OutboxRow.id

theorem marks_relayed (rows : List OutboxRow) :
    marks (relayed rows) = rows.map OutboxRow.id := by
  induction rows with
  | nil => rfl
  | cons row rows ih => exact congrArg (row.id :: ·) ih

section

variable {failure : Bool → RelayError} {limit : ℤ}

theorem due_fetched (rows : List OutboxRow) (τ : Trace Request.Answer) :
    due (fetched limit rows ++ τ) = (rows.drop (sends τ).length).map OutboxRow.id := rfl

theorem inFlight_fetched (rows : List OutboxRow) (τ : Trace Request.Answer) :
    inFlight (fetched limit rows ++ τ) = (rows.drop (marks τ).length).map OutboxRow.id := rfl

theorem sends_relayed_append (done : List OutboxRow) (τ : Trace Request.Answer) :
    sends (relayed done ++ τ) = done ++ sends τ := by
  rw [sends, List.filterMap_append]
  exact congrArg (· ++ sends τ) (sends_relayed done)

theorem marks_relayed_append (done : List OutboxRow) (τ : Trace Request.Answer) :
    marks (relayed done ++ τ) = done.map OutboxRow.id ++ marks τ := by
  rw [marks, List.filterMap_append]
  exact congrArg (· ++ marks τ) (marks_relayed done)

/-- The loop has sent and marked `done`, and has made the exchanges `τ` since. -/
theorem due_loop (done rest : List OutboxRow) (τ : Trace Request.Answer) :
    due (fetched limit (done ++ rest) ++ (relayed done ++ τ)) =
      (rest.drop (sends τ).length).map OutboxRow.id := by
  rw [due_fetched, sends_relayed_append, List.length_append, List.drop_append]
  simp

theorem inFlight_loop (done rest : List OutboxRow) (τ : Trace Request.Answer) :
    inFlight (fetched limit (done ++ rest) ++ (relayed done ++ τ)) =
      (rest.drop (marks τ).length).map OutboxRow.id := by
  rw [inFlight_fetched, marks_relayed_append, List.length_append, List.length_map,
    List.drop_append]
  simp

theorem due_head (done rest : List OutboxRow) :
    due (fetched limit (done ++ rest) ++ relayed done) = rest.map OutboxRow.id := by
  rw [← List.append_nil (relayed done), due_loop]
  rfl

theorem inFlight_head (done rest : List OutboxRow) :
    inFlight (fetched limit (done ++ rest) ++ relayed done) = rest.map OutboxRow.id := by
  rw [← List.append_nil (relayed done), inFlight_loop]
  rfl

section

variable (done : List OutboxRow) (row : OutboxRow) (rest : List OutboxRow)

theorem due_published : due (fetched limit (done ++ row :: rest) ++ relayed done ++
    [⟨.publish row, true⟩]) = rest.map OutboxRow.id := by
  rw [List.append_assoc, due_loop]
  rfl

theorem inFlight_published : inFlight (fetched limit (done ++ row :: rest) ++ relayed done ++
    [⟨.publish row, true⟩]) = row.id :: rest.map OutboxRow.id := by
  rw [List.append_assoc, inFlight_loop]
  rfl

theorem due_marked : due (fetched limit (done ++ row :: rest) ++ relayed done ++
    [⟨.publish row, true⟩] ++ [⟨.markPublished row.id, true⟩]) = rest.map OutboxRow.id := by
  rw [List.append_assoc, List.append_assoc, due_loop]
  rfl

theorem inFlight_marked : inFlight (fetched limit (done ++ row :: rest) ++ relayed done ++
    [⟨.publish row, true⟩] ++ [⟨.markPublished row.id, true⟩]) = rest.map OutboxRow.id := by
  rw [List.append_assoc, List.append_assoc, inFlight_loop]
  rfl

end

/-- No publish and no mark has failed. -/
def Faultless (τ : Trace Request.Answer) : Prop :=
  (∀ row, ⟨.publish row, false⟩ ∉ τ) ∧ ∀ id, ⟨.markPublished id, false⟩ ∉ τ

variable {τ : Trace Request.Answer} {p : Proc Drained}

/-- A drain that has returned has nothing left to do. -/
theorem At.over (h : At failure limit τ p) (hf : Faultless τ) (hp : p.next = none) :
    due τ = [] ∧ inFlight τ = [] := by
  cases h with
  | start => exact nomatch hp
  | selected rows => exact nomatch hp
  | unfetched => exact ⟨rfl, rfl⟩
  | uncommitted rows => exact ⟨rfl, rfl⟩
  | head done rest =>
    cases rest with
    | nil => exact ⟨due_head done [], inFlight_head done []⟩
    | cons row rest => exact nomatch hp
  | published done row rest ok => cases ok <;> exact nomatch hp
  | unmarked done row rest => exact absurd (by simp) (hf.2 row.id)
  | unpublished done row rest marked => exact absurd (by simp) (hf.1 row)

/-- The transaction of a fetch ends right after the SELECT. -/
theorem At.commit (h : At failure limit τ p) (hp : p.next = some .commit) :
    ∃ rows : List OutboxRow, τ = [⟨.selectPending limit, some rows⟩] := by
  cases h with
  | selected rows => exact ⟨rows, rfl⟩
  | head done rest => cases rest <;> exact nomatch hp
  | published done row rest ok => cases ok <;> exact nomatch hp
  | _ => exact nomatch hp

/-- A drain without faults counts no failed attempt, and leaves the publisher to its one
request. -/
theorem At.faultless_next (h : At failure limit τ p) (hf : Faultless τ) {q : Request}
    (hp : p.next = some q) : (∃ n, q = .selectPending n) ∨ q = .commit ∨
      (∃ row, q = .publish row) ∨ ∃ id, q = .markPublished id := by
  cases h with
  | start => exact Or.inl ⟨limit, (Option.some.inj hp).symm⟩
  | selected rows => exact Or.inr (Or.inl (Option.some.inj hp).symm)
  | head done rest =>
    cases rest with
    | nil => exact nomatch hp
    | cons row rest => exact Or.inr (Or.inr (Or.inl ⟨row, (Option.some.inj hp).symm⟩))
  | published done row rest ok =>
    cases ok with
    | false => exact absurd (by simp) (hf.1 row)
    | true => exact Or.inr (Or.inr (Or.inr ⟨row.id, (Option.some.inj hp).symm⟩))
  | _ => exact nomatch hp

end

namespace Relays

variable {ι : Type} [Fintype ι] [DecidableEq ι] {svc : Service} {conf : ι → Relay} {w : Relays ι}

/-! ## Counting -/

/-- The rows `g` of the exchanges of a relay's drain. -/
def rowsBy (g : Trace Request.Answer → List Uuid) : Option Drain → List Uuid
  | some d => g d.trace
  | none => []

/-- How often a message of the row was acknowledged. -/
def sent (w : Relays ι) (id : Uuid) : ℕ := (w.acked.map OutboxRow.id).count id

instance (outbox : Outbox) (id : Uuid) : Decidable (Published outbox id) :=
  inferInstanceAs (Decidable (_ = _))

/-- How often the row is sent, or yet to be sent. -/
def work (w : Relays ι) (id : Uuid) : ℕ :=
  w.sent id + ∑ i, (rowsBy due (w.drain i)).count id

/-- Whether the row is PUBLISHED, and in how many drains it is in flight. -/
def held (w : Relays ι) (id : Uuid) : ℕ :=
  (if Published w.outbox id then 1 else 0) + ∑ i, (rowsBy inFlight (w.drain i)).count id

/-- Every row is sent once if it is PUBLISHED, and is not sent otherwise. -/
def SentOnce (w : Relays ι) : Prop :=
  ∀ row ∈ w.outbox.rows, w.sent row.id = if row.status = .published then 1 else 0

instance (w : Relays ι) : Decidable w.SentOnce :=
  inferInstanceAs (Decidable (∀ row ∈ w.outbox.rows, _))

/-- The request that a relay makes next. -/
def next (w : Relays ι) (i : ι) : Option Request :=
  match w.drain i with
  | some d => d.prog.next
  | none => none

/-- The request is a publish or a mark. -/
def dispatches : Option Request → Bool
  | some (.publish _) | some (.markPublished _) | some (.markFailed _) => true
  | _ => false

/-- No crash, and no failed publish or mark. -/
def Clean (w : Relays ι) : RelayLabel ι → Prop
  | .insert .. | .start _ => True
  | .crash _ => False
  | .act i c => dispatches (w.next i) = true → c.ok = true

instance (w : Relays ι) : (l : RelayLabel ι) → Decidable (w.Clean l)
  | .insert .. | .start _ => inferInstanceAs (Decidable True)
  | .crash _ => inferInstanceAs (Decidable False)
  | .act i c => inferInstanceAs (Decidable (dispatches (w.next i) = true → c.ok = true))

/-- A fetch ends with a row that is in flight in the drain of another relay. -/
def Refetches (w : Relays ι) : RelayLabel ι → Prop
  | .act i c => c.ok = true ∧
      ∃ id ∈ w.lockedBy i, ∃ j, j ≠ i ∧ id ∈ rowsBy inFlight (w.drain j)
  | _ => False

instance (w : Relays ι) : (l : RelayLabel ι) → Decidable (w.Refetches l)
  -- through the list, since the row ids are finitely many
  | .act i c => @instDecidableAnd (c.ok = true) _ _
      (List.decidableBEx (fun id => ∃ j, j ≠ i ∧ id ∈ rowsBy inFlight (w.drain j)) (w.lockedBy i))
  | .insert .. | .start _ | .crash _ => inferInstanceAs (Decidable False)

/-- A sum over the drains, of which one has changed. -/
theorem sum_update (g : Option Drain → ℕ) (f : ι → Option Drain) (i : ι) (d : Option Drain) :
    ∑ j, g (Function.update f i d j) + g (f i) = ∑ j, g (f j) + g d := by
  rw [← Finset.add_sum_erase _ _ (Finset.mem_univ i),
    ← Finset.add_sum_erase _ (fun j => g (f j)) (Finset.mem_univ i), Function.update_self]
  have hrest : ∑ j ∈ Finset.univ.erase i, g (Function.update f i d j) =
      ∑ j ∈ Finset.univ.erase i, g (f j) := by
    refine Finset.sum_congr rfl fun j hj => ?_
    rw [Function.update_of_ne (Finset.ne_of_mem_erase hj)]
  rw [hrest]
  omega

/-! ## Runs without faults -/

/-- What a run without faults keeps. -/
structure Racing (svc : Service) (conf : ι → Relay) (w : Relays ι) : Prop where
  known : AllKnown svc conf w
  faultless : ∀ i d, w.drain i = some d → Faultless d.trace
  /-- Locked rows are PENDING. -/
  locked : ∀ i, ∀ id ∈ w.lockedBy i, ¬Published w.outbox id

theorem Racing.at (h : Racing svc conf w) {i : ι} {d : Drain} (hd : w.drain i = some d) :
    At svc.failure (conf i).batchSize d.trace d.prog :=
  (h.known i d hd).at

theorem next_of_drain {i : ι} {d : Drain} (hd : w.drain i = some d) :
    w.next i = d.prog.next := by
  rw [next, hd]

/-- A relay that is idle has nothing left to do. -/
theorem Racing.idle (h : Racing svc conf w) {i : ι} (hi : w.idle i = true) :
    rowsBy due (w.drain i) = [] ∧ rowsBy inFlight (w.drain i) = [] := by
  cases hd : w.drain i with
  | none => exact ⟨rfl, rfl⟩
  | some d =>
    obtain ⟨p, τ, a⟩ := d
    refine (h.at hd).over (h.faultless i _ hd) ?_
    cases p with
    | ret x => rfl
    | call q k => simp [Relays.idle, hd] at hi

theorem published_insertOutbox {stamp : Stamp} {outbox outbox' : Outbox} {ob : OutboxInsert}
    (h : insertOutbox stamp outbox ob = .ok outbox') (id : Uuid) :
    Published outbox' id ↔ Published outbox id := by
  refine ⟨fun hp => ?_, fun hp => hp.mono (kept_insertOutbox h)⟩
  obtain ⟨-, hrows⟩ := insertOutbox_eq_ok.mp h
  obtain ⟨row, hrow, hst⟩ := Option.map_eq_some_iff.mp hp
  obtain ⟨hmem, hid⟩ := Table.find?_eq_some.mp hrow
  rw [hrows, List.mem_append, List.mem_singleton] at hmem
  obtain hmem | rfl := hmem
  · rw [Published, Table.find?_eq_some.mpr ⟨hmem, hid⟩, Option.map_some, hst]
  · cases hst

/-- The answer to a request of a drain without faults is no failed publish or mark. -/
theorem Racing.faultless_exchange (h : Racing svc conf w) {i : ι} {c : Choice} {q : Request}
    {k : q.Answer → Proc Drained} {τ : Trace Request.Answer} {a : List Uuid}
    (hd : w.drain i = some ⟨.call q k, τ, a⟩) (hc : w.Clean (.act i c)) :
    Faultless (τ ++ [⟨q, (w.answer i c q).1⟩]) := by
  have hold := h.faultless i _ hd
  have hc' : dispatches (some q) = true → c.ok = true := by
    have hnext : w.next i = some q := next_of_drain hd
    rw [← hnext]
    exact hc
  constructor
  · intro row hm
    obtain hm | hm := List.mem_append.mp hm
    · exact hold.1 row hm
    · cases q with
      | publish row' =>
        obtain ⟨-, hok⟩ := Sigma.mk.inj_iff.mp (List.mem_singleton.mp hm)
        exact nomatch (eq_of_heq hok : false = c.ok).trans (hc' rfl)
      | _ => simp at hm
  · intro id hm
    obtain hm | hm := List.mem_append.mp hm
    · exact hold.2 id hm
    · cases q with
      | markPublished id' =>
        obtain ⟨-, hok⟩ := Sigma.mk.inj_iff.mp (List.mem_singleton.mp hm)
        exact nomatch (eq_of_heq hok : false = c.ok).trans (hc' rfl)
      | _ => simp at hm

/-- A drain that has made two exchanges holds no locks. -/
theorem locked_append (p : Proc Drained) {τ : Trace Request.Answer} (hτ : τ ≠ [])
    (e : (q : Request) × q.Answer) (a : List Uuid) :
    Drain.locked ⟨p, τ ++ [e], a⟩ = [] := by
  unfold Drain.locked
  split
  next heq =>
    have hlen := congrArg List.length heq
    rw [List.length_append, List.length_singleton, List.length_singleton] at hlen
    exact absurd (List.eq_nil_of_length_eq_zero (by omega)) hτ
  next => rfl

/-- The locks after an exchange : a SELECT takes them, and every other request is made
without. -/
theorem Racing.lockedBy_exchange (h : Racing svc conf w) {i : ι} {c : Choice} {q : Request}
    {k : q.Answer → Proc Drained} {τ : Trace Request.Answer} {a : List Uuid}
    (hd : w.drain i = some ⟨.call q k, τ, a⟩) {id : Uuid}
    (hid : id ∈ (w.exchange i c q k τ a).lockedBy i) :
    (∃ n, q = .selectPending n) ∧ ¬Published w.outbox id := by
  have hlocked : (w.exchange i c q k τ a).lockedBy i =
      Drain.locked ⟨k (w.answer i c q).1, τ ++ [⟨q, (w.answer i c q).1⟩], w.fetchIds a q⟩ := by
    simp [lockedBy, Relays.exchange]
  rw [hlocked] at hid
  by_cases hτ : τ = []
  · subst hτ
    have hsel : ∃ n, q = .selectPending n := by
      cases hat : h.at hd
      exact ⟨_, rfl⟩
    obtain ⟨n, rfl⟩ := hsel
    refine ⟨⟨n, rfl⟩, ?_⟩
    cases hans : (w.answer i c (.selectPending n)).1 with
    | none =>
      rw [hans] at hid
      exact absurd hid List.not_mem_nil
    | some rows =>
      rw [hans] at hid
      obtain ⟨-, rfl, hfinds⟩ := found_rows hans
      obtain ⟨row, hrow, rfl⟩ := List.mem_map.mp hid
      obtain ⟨hfind, hst, -⟩ := hfinds.mem (List.mem_of_mem_take hrow)
      rw [Published, hfind, Option.map_some, hst]
      simp
  · rw [locked_append _ hτ] at hid
    exact absurd hid List.not_mem_nil

theorem lockedBy_update_of_ne {w' : Relays ι} {i j : ι} {d : Option Drain}
    (hw' : w'.drain = Function.update w.drain i d) (hj : j ≠ i) :
    w'.lockedBy j = w.lockedBy j := by
  rw [lockedBy, lockedBy, hw', Function.update_of_ne hj]

/-- What holds of every drain holds after that of `i` is replaced by one of which it holds. -/
theorem forall_drain_update {P : Drain → Prop} (h : ∀ j d, w.drain j = some d → P d) {i : ι}
    {d : Drain} (hd : P d) (j : ι) (d' : Drain)
    (hj : Function.update w.drain i (some d) j = some d') : P d' := by
  by_cases hji : j = i
  · subst hji
    rwa [← Option.some.inj ((Function.update_self j _ _).symm.trans hj)]
  · exact h j d' ((Function.update_of_ne hji _ _).symm.trans hj)

/-- A request that does not wait for the lock of a row does not publish the row. -/
theorem not_published_answer {i j : ι} {c : Choice} {q : Request} {id : Uuid}
    (hw : ¬w.Waits i q) (hji : j ≠ i) (hid : id ∈ w.lockedBy j) (h : ¬Published w.outbox id) :
    ¬Published (w.answer i c q).2.1 id := by
  cases q with
  | markPublished id' =>
    simp only [answer]
    split_ifs
    · rw [published_markPublished, not_or]
      refine ⟨h, ?_⟩
      rintro ⟨rfl, -⟩
      exact hw ⟨j, hji, hid⟩
    · exact h
  | markFailed id' =>
    simp only [answer]
    split_ifs
    · rwa [published_markFailed]
    · exact h
  | _ => exact h

theorem racing_step (h : Racing svc conf w) {l : RelayLabel ι} (hc : w.Clean l) :
    Racing svc conf (w.step svc conf l) := by
  refine ⟨h.known.step l, ?_, ?_⟩
  · obtain heq | ⟨stamp, ob, outbox, -, hins, heq⟩ | ⟨i, -, -, heq⟩ | ⟨i, rfl, heq⟩ |
      ⟨i, c, q, k, τ, a, rfl, hd, -, heq⟩ := step_cases svc conf w l <;> rw [heq]
    · exact h.faultless
    · exact h.faultless
    · exact forall_drain_update h.faultless
        ⟨fun _ => List.not_mem_nil, fun _ => List.not_mem_nil⟩
    · exact hc.elim
    · exact forall_drain_update h.faultless (h.faultless_exchange hd hc)
  · obtain heq | ⟨stamp, ob, outbox, -, hins, heq⟩ | ⟨i, -, -, heq⟩ | ⟨i, rfl, heq⟩ |
      ⟨i, c, q, k, τ, a, rfl, hd, hw, heq⟩ := step_cases svc conf w l <;> rw [heq]
    · exact h.locked
    · exact fun j id hid hp => h.locked j id hid ((published_insertOutbox hins id).mp hp)
    · intro j id hid
      by_cases hji : j = i
      · subst hji
        simp [lockedBy, Drain.locked] at hid
      · rw [lockedBy_update_of_ne rfl hji] at hid
        exact h.locked j id hid
    · exact hc.elim
    · intro j id hid
      by_cases hji : j = i
      · subst hji
        obtain ⟨⟨n, rfl⟩, hp⟩ := h.lockedBy_exchange hd hid
        exact hp
      · rw [lockedBy_update_of_ne rfl hji] at hid
        exact not_published_answer hw hji hid (h.locked j id hid)

/-! ## The accounts -/

section

variable {i : ι} {q : Request} {k : q.Answer → Proc Drained} {τ : Trace Request.Answer}
  {a : List Uuid}

theorem sum_exchange (g : Trace Request.Answer → List Uuid) (c : Choice)
    (hd : w.drain i = some ⟨.call q k, τ, a⟩) (id : Uuid) :
    ∑ j, (rowsBy g ((w.exchange i c q k τ a).drain j)).count id + (g τ).count id =
      ∑ j, (rowsBy g (w.drain j)).count id +
        (g (τ ++ [⟨q, (w.answer i c q).1⟩])).count id := by
  have hsum := sum_update (fun d => (rowsBy g d).count id) w.drain i
    (some ⟨k (w.answer i c q).1, τ ++ [⟨q, (w.answer i c q).1⟩], w.fetchIds a q⟩)
  rw [hd] at hsum
  exact hsum

/-- An exchange changes `work` by what is sent, and by what is due to its relay. -/
theorem work_exchange (c : Choice) (hd : w.drain i = some ⟨.call q k, τ, a⟩) (id : Uuid) :
    (w.exchange i c q k τ a).work id + w.sent id + (due τ).count id =
      w.work id + (w.exchange i c q k τ a).sent id +
        (due (τ ++ [⟨q, (w.answer i c q).1⟩])).count id := by
  have hsum := sum_exchange due c hd id
  rw [work, work]
  omega

/-- An exchange that leaves the outbox changes `held` by what is in flight at its relay. -/
theorem held_exchange (c : Choice) (hd : w.drain i = some ⟨.call q k, τ, a⟩)
    (hout : (w.answer i c q).2.1 = w.outbox) (id : Uuid) :
    (w.exchange i c q k τ a).held id + (inFlight τ).count id =
      w.held id + (inFlight (τ ++ [⟨q, (w.answer i c q).1⟩])).count id := by
  have hsum := sum_exchange inFlight c hd id
  have hpub : (w.exchange i c q k τ a).outbox = w.outbox := hout
  rw [held, held, hpub]
  omega

end

/-- A SELECT, or a fetch that fails, leaves nothing in flight. -/
theorem Racing.accounts_select (h : Racing svc conf w) {i : ι} (c : Choice) {n : ℤ}
    {k : Option (List OutboxRow) → Proc Drained} {τ : Trace Request.Answer} {a : List Uuid}
    (hd : w.drain i = some ⟨.call (.selectPending n) k, τ, a⟩) (id : Uuid) :
    (w.exchange i c (.selectPending n) k τ a).work id = w.work id ∧
      (w.exchange i c (.selectPending n) k τ a).held id = w.held id := by
  obtain ⟨-, hτ⟩ := (h.at hd).selectPending rfl
  change τ = [] at hτ
  subst hτ
  have hsent : (w.exchange i c (.selectPending n) k [] a).sent id = w.sent id := rfl
  have hwork := work_exchange c hd id
  have hheld := held_exchange c hd rfl id
  have hnone : ∀ r : Option (List OutboxRow), due [⟨.selectPending n, r⟩] = [] ∧
      inFlight [⟨.selectPending n, r⟩] = [] := by
    intro r
    cases r <;> exact ⟨rfl, rfl⟩
  have hstart : due [] = [] ∧ inFlight [] = [] := ⟨rfl, rfl⟩
  rw [List.nil_append, (hnone _).1, hstart.1, hsent] at hwork
  rw [List.nil_append, (hnone _).2, hstart.2] at hheld
  exact ⟨by omega, by omega⟩

/-- The end of a fetch : the rows that were locked are in flight. -/
theorem Racing.accounts_commit (h : Racing svc conf w) {i : ι} (c : Choice)
    {k : Bool → Proc Drained} {τ : Trace Request.Answer} {a : List Uuid}
    (hd : w.drain i = some ⟨.call .commit k, τ, a⟩) :
    rowsBy inFlight (w.drain i) = [] ∧ ∀ id,
      (w.exchange i c .commit k τ a).work id =
        w.work id + (if c.ok then (w.lockedBy i).count id else 0) ∧
      (w.exchange i c .commit k τ a).held id =
        w.held id + (if c.ok then (w.lockedBy i).count id else 0) := by
  obtain ⟨rows, hτ⟩ := (h.at hd).commit rfl
  change τ = _ at hτ
  subst hτ
  have hlocked : w.lockedBy i = rows.map OutboxRow.id := by
    rw [lockedBy, hd]
    rfl
  refine ⟨by rw [hd]; rfl, fun id => ?_⟩
  have hans : (w.answer i c .commit).1 = c.ok := rfl
  have hsent : (w.exchange i c .commit k
      [⟨.selectPending (conf i).batchSize, some rows⟩] a).sent id = w.sent id := rfl
  have hwork := work_exchange c hd id
  have hheld := held_exchange c hd rfl id
  rw [hans, hsent] at hwork
  rw [hans] at hheld
  have hnil : due [⟨.selectPending (conf i).batchSize, some rows⟩] = [] ∧
      inFlight [⟨.selectPending (conf i).batchSize, some rows⟩] = [] := ⟨rfl, rfl⟩
  have hafter : ∀ ok : Bool,
      due ([⟨.selectPending (conf i).batchSize, some rows⟩] ++ [⟨.commit, ok⟩]) =
        (if ok then rows.map OutboxRow.id else []) ∧
      inFlight ([⟨.selectPending (conf i).batchSize, some rows⟩] ++ [⟨.commit, ok⟩]) =
        (if ok then rows.map OutboxRow.id else []) := by
    intro ok
    cases ok <;> exact ⟨rfl, rfl⟩
  rw [hnil.1, (hafter _).1, List.count_nil] at hwork
  rw [hnil.2, (hafter _).2, List.count_nil] at hheld
  rw [hlocked]
  split_ifs at hwork hheld ⊢ with hok
  · exact ⟨by omega, by omega⟩
  · rw [List.count_nil] at hwork hheld
    exact ⟨by omega, by omega⟩

/-- A row that is sent is no longer due. -/
theorem Racing.accounts_publish (h : Racing svc conf w) {i : ι} {c : Choice} {row : OutboxRow}
    {k : Bool → Proc Drained} {τ : Trace Request.Answer} {a : List Uuid}
    (hd : w.drain i = some ⟨.call (.publish row) k, τ, a⟩) (hok : c.ok = true) (id : Uuid) :
    (w.exchange i c (.publish row) k τ a).work id = w.work id ∧
      (w.exchange i c (.publish row) k τ a).held id = w.held id := by
  obtain ⟨done, rest, hτ⟩ := (h.at hd).publish rfl
  change τ = _ at hτ
  have hans : (w.answer i c (.publish row)).1 = true := hok
  have hsent : (w.exchange i c (.publish row) k τ a).sent id =
      ((row :: w.acked).map OutboxRow.id).count id := by
    simp [sent, Relays.exchange, answer, hok]
  have hwork := work_exchange c hd id
  have hheld := held_exchange c hd rfl id
  rw [hans, hsent, sent, hτ, due_head, due_published, List.map_cons, List.map_cons,
    List.count_cons, List.count_cons] at hwork
  rw [hans, hτ, inFlight_head, inFlight_published, List.map_cons] at hheld
  rw [hτ]
  exact ⟨by omega, by omega⟩

/-- A row that is marked is no longer in flight, and is PUBLISHED, perhaps for the second
time. -/
theorem Racing.accounts_mark (h : Racing svc conf w) {i : ι} {c : Choice} {id' : Uuid}
    {k : Bool → Proc Drained} {τ : Trace Request.Answer} {a : List Uuid}
    (hd : w.drain i = some ⟨.call (.markPublished id') k, τ, a⟩) (hok : c.ok = true) (id : Uuid) :
    (w.exchange i c (.markPublished id') k τ a).work id = w.work id ∧
      ((w.exchange i c (.markPublished id') k τ a).held id = w.held id ∨
        (w.exchange i c (.markPublished id') k τ a).held id + 1 = w.held id ∧ 2 ≤ w.held id) := by
  obtain ⟨done, row, rest, rfl, hτ⟩ := (h.at hd).markPublished rfl
  change τ = _ at hτ
  have hans : (w.answer i c (.markPublished row.id)).1 = true := hok
  have hsent : (w.exchange i c (.markPublished row.id) k τ a).sent id = w.sent id := rfl
  have hwork := work_exchange c hd id
  have hsum := sum_exchange inFlight c hd id
  rw [hans, hsent, hτ, due_published, due_marked, ← hτ] at hwork
  rw [hans, hτ, inFlight_published, inFlight_marked, ← hτ, List.count_cons] at hsum
  refine ⟨by omega, ?_⟩
  have hpub : Published (w.exchange i c (.markPublished row.id) k τ a).outbox id ↔
      Published w.outbox id ∨ id = row.id := by
    obtain ⟨m, -, hm, row', hrow', -⟩ := (h.known i _ hd).marking rfl
    have hout : (w.exchange i c (.markPublished row.id) k τ a).outbox =
        markPublished w.outbox row.id := by
      simp [Relays.exchange, answer, hok]
    rw [hout, published_markPublished, ← hm, hrow']
    simp
  simp only [held, hpub]
  by_cases hid : id = row.id
  · subst hid
    simp only [beq_self_eq_true, if_true, or_true] at hsum ⊢
    split_ifs <;> omega
  · have hne : (row.id == id) = false := by simpa using fun heq => hid heq.symm
    simp only [hne, hid, or_false, Bool.false_eq_true, if_false] at hsum ⊢
    omega

/-- A step without faults adds to `work` only at the end of a fetch, and what it takes
from `held` was held twice. -/
theorem Racing.accounts (h : Racing svc conf w) {l : RelayLabel ι} (hc : w.Clean l) :
    (∃ i c, l = .act i c ∧ c.ok = true ∧ rowsBy inFlight (w.drain i) = [] ∧ ∀ id,
      (w.step svc conf l).work id = w.work id + (w.lockedBy i).count id ∧
      (w.step svc conf l).held id = w.held id + (w.lockedBy i).count id) ∨
    ∀ id, (w.step svc conf l).work id = w.work id ∧
      ((w.step svc conf l).held id = w.held id ∨
        (w.step svc conf l).held id + 1 = w.held id ∧ 2 ≤ w.held id) := by
  obtain heq | ⟨stamp, ob, outbox, -, hins, heq⟩ | ⟨i, -, hi, heq⟩ | ⟨i, rfl, heq⟩ |
    ⟨i, c, q, k, τ, a, rfl, hd, -, heq⟩ := step_cases svc conf w l <;> rw [heq]
  · exact Or.inr fun id => ⟨rfl, Or.inl rfl⟩
  · refine Or.inr fun id => ⟨rfl, Or.inl ?_⟩
    simp only [held, published_insertOutbox hins id]
  · -- the drain that is replaced was over
    obtain ⟨hdue, hflight⟩ := h.idle hi
    refine Or.inr fun id => ⟨?_, Or.inl ?_⟩
    · have hsum := sum_update (fun d => (rowsBy due d).count id) w.drain i
        (some ⟨svc.drainOnce (conf i), [], []⟩)
      rw [hdue] at hsum
      exact congrArg (w.sent id + ·) hsum
    · have hsum := sum_update (fun d => (rowsBy inFlight d).count id) w.drain i
        (some ⟨svc.drainOnce (conf i), [], []⟩)
      rw [hflight] at hsum
      exact congrArg ((if Published w.outbox id then 1 else 0) + ·) hsum
  · exact hc.elim
  · have hnext : w.next i = some q := next_of_drain hd
    have hok : dispatches (some q) = true → c.ok = true := by
      rw [← hnext]
      exact hc
    obtain ⟨n, rfl⟩ | rfl | ⟨row, rfl⟩ | ⟨id', rfl⟩ :=
      (h.at hd).faultless_next (h.faultless i _ hd) rfl
    · exact Or.inr fun id => (h.accounts_select c hd id).imp_right Or.inl
    · obtain ⟨hflight, hcounts⟩ := h.accounts_commit c hd
      by_cases hcok : c.ok = true
      · refine Or.inl ⟨i, c, rfl, hcok, hflight, fun id => ?_⟩
        have hid := hcounts id
        rwa [if_pos hcok] at hid
      · refine Or.inr fun id => ?_
        have hid := hcounts id
        rw [if_neg hcok] at hid
        exact hid.imp_right Or.inl
    · exact Or.inr fun id => (h.accounts_publish hd (hok rfl) id).imp_right Or.inl
    · exact Or.inr fun id => h.accounts_mark hd (hok rfl) id

/-- Locks are held by a relay at the end of its fetch. -/
theorem Racing.drain_of_locked (h : Racing svc conf w) {i : ι} {id : Uuid}
    (hid : id ∈ w.lockedBy i) : w.outbox.find? id ≠ none ∧ (w.lockedBy i).Nodup ∧
      ∃ k τ a, w.drain i = some ⟨.call .commit k, τ, a⟩ := by
  rw [lockedBy] at hid ⊢
  cases hd : w.drain i with
  | none => exact absurd hid (by simp [hd])
  | some d =>
    obtain ⟨p, τ, a⟩ := d
    simp only [hd, Drain.locked] at hid ⊢
    split at hid
    next n rows =>
      obtain ⟨hrows, hnodup, -⟩ := (h.known i _ hd).rows n rows (List.mem_singleton.mpr rfl)
      obtain ⟨row, hrow, rfl⟩ := List.mem_map.mp hid
      obtain ⟨row', hrow', -⟩ := hrows row hrow
      refine ⟨by simp [hrow'], hnodup, ?_⟩
      cases h.at hd with
      | selected rows => exact ⟨_, _, _, rfl⟩
    next => exact absurd hid List.not_mem_nil

/-- What a fetch ends with while it is in flight elsewhere is sent twice. -/
theorem Racing.two_le_work_of_refetches (h : Racing svc conf w)
    (hcov : ∀ id, w.held id ≤ w.work id) {l : RelayLabel ι} (hl : w.Refetches l) :
    ∃ id, w.outbox.find? id ≠ none ∧ 2 ≤ (w.step svc conf l).work id := by
  cases l with
  | act i c =>
    obtain ⟨hok, id, hid, j, hji, hj⟩ := hl
    obtain ⟨hfind, -, k, τ, a, hd⟩ := h.drain_of_locked hid
    refine ⟨id, hfind, ?_⟩
    have hstep : w.step svc conf (.act i c) = w.exchange i c .commit k τ a := by
      rw [Relays.step, hd]
      exact if_neg fun hw => hw
    obtain ⟨-, hcounts⟩ := h.accounts_commit c hd
    have hwork := (hcounts id).1
    rw [if_pos hok] at hwork
    have hfetched : 1 ≤ (w.lockedBy i).count id := List.one_le_count_iff.mpr hid
    have hflight : 1 ≤ w.held id := by
      have hone : 1 ≤ (rowsBy inFlight (w.drain j)).count id := List.one_le_count_iff.mpr hj
      have hsum := Finset.single_le_sum
        (f := fun j => (rowsBy inFlight (w.drain j)).count id) (fun _ _ => Nat.zero_le _)
        (Finset.mem_univ j)
      exact hone.trans (hsum.trans (Nat.le_add_left _ _))
    have hle := hcov id
    rw [hstep, hwork]
    omega
  | _ => exact hl.elim

/-- Rows are held as often as there is work for them, and at most once. -/
def Once (w : Relays ι) : Prop := ∀ id, w.held id = w.work id ∧ w.work id ≤ 1

theorem Racing.once_step (h : Racing svc conf w) (ho : w.Once) {l : RelayLabel ι}
    (hc : w.Clean l) (hl : ¬w.Refetches l) : (w.step svc conf l).Once := by
  intro id
  have hold := ho id
  obtain ⟨i, c, rfl, hok, hflight, hcounts⟩ | hcounts := h.accounts hc
  · obtain ⟨hwork, hheld⟩ := hcounts id
    by_cases hid : id ∈ w.lockedBy i
    · have hnone : w.held id = 0 := by
        rw [held, if_neg (h.locked i id hid), Nat.zero_add]
        refine Finset.sum_eq_zero fun j _ => List.count_eq_zero.mpr fun hj => ?_
        by_cases hji : j = i
        · subst hji
          rw [hflight] at hj
          exact nomatch hj
        · exact hl ⟨hok, id, hid, j, hji, hj⟩
      have hcount := List.nodup_iff_count_le_one.mp (h.drain_of_locked hid).2.1 id
      exact ⟨by omega, by omega⟩
    · rw [List.count_eq_zero.mpr hid] at hwork hheld
      exact ⟨by omega, by omega⟩
  · obtain ⟨hwork, hheld⟩ := hcounts id
    exact ⟨by omega, by omega⟩

theorem Racing.covered_step (h : Racing svc conf w) (hcov : ∀ id, w.held id ≤ w.work id)
    {l : RelayLabel ι} (hc : w.Clean l) (id : Uuid) :
    (w.step svc conf l).held id ≤ (w.step svc conf l).work id := by
  have hle := hcov id
  obtain ⟨i, c, rfl, -, -, hcounts⟩ | hcounts := h.accounts hc <;>
    obtain ⟨hwork, hheld⟩ := hcounts id <;> omega

theorem Racing.work_le_step (h : Racing svc conf w) {l : RelayLabel ι} (hc : w.Clean l)
    (id : Uuid) : w.work id ≤ (w.step svc conf l).work id := by
  obtain ⟨i, c, rfl, -, -, hcounts⟩ | hcounts := h.accounts hc <;>
    obtain ⟨hwork, -⟩ := hcounts id <;> omega

/-! ## Whole runs -/

theorem racing_init (svc : Service) (conf : ι → Relay) : Racing svc conf init where
  known _ _ hd := nomatch hd
  faultless _ _ hd := nomatch hd
  locked _ _ hid := nomatch hid

theorem once_init : (init : Relays ι).Once := by
  intro id
  have hpub : ¬Published Table.empty id := fun hp => nomatch hp
  simp [held, work, sent, hpub, init, rowsBy]

theorem Racing.run (h : Racing svc conf w) {ls : List (RelayLabel ι)}
    (hc : Along (step svc conf) Clean w ls) : Racing svc conf (runFrom (step svc conf) w ls) :=
  (throughout_of_along (I := Racing svc conf) (fun _ _ h hc => racing_step h hc) h hc).last

theorem Racing.work_le_run (h : Racing svc conf w) {ls : List (RelayLabel ι)}
    (hc : Along (step svc conf) Clean w ls) (id : Uuid) :
    w.work id ≤ (runFrom (step svc conf) w ls).work id := by
  induction ls generalizing w with
  | nil => exact Nat.le_refl _
  | cons l ls ih => exact (h.work_le_step hc.1 id).trans (ih (racing_step h hc.1) hc.2)

/-- When all relays are idle, all work is done. -/
theorem Racing.done (h : Racing svc conf w) (hidle : ∀ i, w.idle i = true) (id : Uuid) :
    w.work id = w.sent id ∧ w.held id = if Published w.outbox id then 1 else 0 := by
  constructor
  · rw [work, Finset.sum_eq_zero fun i _ => by rw [(h.idle (hidle i)).1, List.count_nil],
      Nat.add_zero]
  · rw [held, Finset.sum_eq_zero fun i _ => by rw [(h.idle (hidle i)).2, List.count_nil],
      Nat.add_zero]

theorem published_iff_status {outbox : Outbox} {row : OutboxRow} (hrow : row ∈ outbox.rows) :
    Published outbox row.id ↔ row.status = .published := by
  rw [Published, Table.mem_iff_find?.mp hrow, Option.map_some, Option.some_inj]

/-- A run that sends no row twice refetches none that is in flight. -/
theorem Racing.not_refetches (h : Racing svc conf w) (hcov : ∀ id, w.held id ≤ w.work id)
    {ls : List (RelayLabel ι)} (hc : Along (step svc conf) Clean w ls)
    (hidle : ∀ i, (runFrom (step svc conf) w ls).idle i = true)
    (hsent : (runFrom (step svc conf) w ls).SentOnce) :
    Along (step svc conf) (fun w l => ¬w.Refetches l) w ls := by
  induction ls generalizing w with
  | nil => trivial
  | cons l ls ih =>
    have hnext := racing_step h hc.1
    refine ⟨fun hl => ?_, ih hnext (h.covered_step hcov hc.1) hc.2 hidle hsent⟩
    obtain ⟨id, hfind, htwo⟩ := h.two_le_work_of_refetches hcov hl
    obtain ⟨row, hrow⟩ := Option.ne_none_iff_exists'.mp hfind
    obtain ⟨row', hrow', -⟩ := kept_run svc conf w (l :: ls) id row hrow
    obtain ⟨hmem, rfl⟩ := Table.find?_eq_some.mp hrow'
    have hle := hnext.work_le_run hc.2 row'.id
    have hdone := ((hnext.run hc.2).done hidle row'.id).1
    have honce := hsent row' hmem
    rw [runFrom_cons] at honce
    split_ifs at honce <;> omega

/-- A run without refetches of rows in flight sends no row twice. -/
theorem Racing.sentOnce (h : Racing svc conf w) (ho : w.Once) {ls : List (RelayLabel ι)}
    (hc : Along (step svc conf) Clean w ls)
    (hl : Along (step svc conf) (fun w l => ¬w.Refetches l) w ls)
    (hidle : ∀ i, (runFrom (step svc conf) w ls).idle i = true) :
    (runFrom (step svc conf) w ls).SentOnce := by
  induction ls generalizing w with
  | nil =>
    intro row hrow
    change row ∈ w.outbox.rows at hrow
    change w.sent row.id = _
    obtain ⟨hwork, hheld⟩ := h.done hidle row.id
    rw [← hwork, ← (ho row.id).1, hheld]
    simp only [published_iff_status hrow]
  | cons l ls ih => exact ih (racing_step h hc.1) (h.once_step ho hc.1 hl.1) hc.2 hl.2 hidle

/-- When the relays are idle again after a run without faults, every row is sent once,
those that are still PENDING excepted, exactly if no fetch has ended with a row that was
in flight at another relay. -/
theorem sentOnce_iff (svc : Service) (conf : ι → Relay) (ls : List (RelayLabel ι))
    (hclean : Along (step svc conf) Clean init ls)
    (hidle : ∀ i, (runFrom (step svc conf) init ls).idle i = true) :
    (runFrom (step svc conf) init ls).SentOnce ↔
      Along (step svc conf) (fun w l => ¬w.Refetches l) init ls := by
  have h := racing_init svc conf
  constructor
  · exact h.not_refetches (fun id => (once_init id).1.le) hclean hidle
  · exact fun hl => h.sentOnce once_init hclean hl hidle

/-- An event of the order 10. -/
def orderEvent : OutboxInsert :=
  ⟨"order", uuidOut 10, "OrderCreated", .orderCreated,
    Envelope.new (.ofKey "k1" 1) "OrderCreated" (uuidOut 10) "" .null, ""⟩

/-- A request succeeds, and a SELECT finds the row of the event. -/
def finds : Choice := ⟨true, false, [orderEvent.row (.ofKey "k1" 1)]⟩

/-- A request succeeds, and a SELECT finds nothing. -/
def findsNone : Choice := ⟨true, false, []⟩

/-- Two relays, one after the other. -/
def inTurn : List (RelayLabel Bool) :=
  [.insert (.ofKey "k1" 1) orderEvent, .start false, .act false finds, .act false finds,
    .act false finds, .act false finds, .start true, .act true findsNone, .act true findsNone]

/-- Two relays, where the second one fetches between the fetch of the first and its mark. -/
def overlapping : List (RelayLabel Bool) :=
  [.insert (.ofKey "k1" 1) orderEvent, .start false, .start true, .act false finds,
    .act false finds, .act true finds, .act true finds, .act false finds, .act true finds,
    .act false finds, .act true finds]

/-- The relays that a service starts with the default batch size. -/
def replicas : Bool → Relay := fun _ => OrderService.newRelay 100

theorem sentOnce_inTurn :
    Along (step .order replicas) Clean init inTurn ∧
      (runFrom (step .order replicas) init inTurn).SentOnce := by
  have hclean : Along (step .order replicas) Clean init inTurn := by decide +kernel
  refine ⟨hclean, (sentOnce_iff .order replicas inTurn hclean ?_).mpr ?_⟩
  · decide +kernel
  · decide +kernel

/-- Without any fault, both relays send the row. -/
theorem not_sentOnce_overlapping :
    Along (step .order replicas) Clean init overlapping ∧
      (∀ i, (runFrom (step .order replicas) init overlapping).idle i = true) ∧
      ¬(runFrom (step .order replicas) init overlapping).SentOnce := by
  decide +kernel

end Relays

end Choreography
