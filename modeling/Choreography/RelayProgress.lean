import Choreography.RelayAgreement

/-!
# What a relay gets done

One relay over its outbox, drain after drain, while its service goes on to commit events.
The rows are fetched by `created_at`, and a drain ends at the first publish that fails
(`cycle_rec`). So a row waits for the rows before it only, however many come later, and a
drain that succeeds takes a whole batch of them away (`published_within`); a row whose
publish fails holds back every row behind it, for as long as it fails (`no_overtaking`). The
attempts of the rows count the drains that failed (`attempts_eq_failures`).
-/

namespace Choreography.Backlog

open Prog

/-! ## Turns -/

/-- The service commits an event, or the relay drains the outbox. -/
inductive Turn
  | insert (stamp : Stamp) (ob : OutboxInsert)
  | drain (outcome : Uuid → Bool)

/-- A turn. An insert whose id is taken already leaves nothing. -/
def turn (svc : Service) (relay : Relay) (planner : Planner) (s : Backlog) : Turn → Backlog
  | .insert stamp ob =>
    match insertOutbox stamp s.outbox ob with
    | .ok outbox => { s with outbox := outbox }
    | .error _ => s
  | .drain outcome => (cycle svc relay planner outcome s).2

/-- How many drains of a run succeed, or fail. -/
def drains (svc : Service) (relay : Relay) (planner : Planner) (ok : Bool) :
    Backlog → List Turn → ℕ
  | _, [] => 0
  | s, .insert stamp ob :: turns =>
    drains svc relay planner ok (turn svc relay planner s (.insert stamp ob)) turns
  | s, .drain outcome :: turns =>
    (if (cycle svc relay planner outcome s).1 = ok then 1 else 0) +
      drains svc relay planner ok (turn svc relay planner s (.drain outcome)) turns

/-- How many of the turns insert a row with a `created_at` up to `c`. -/
def inserted (c : ℕ) : List Turn → ℕ
  | [] => 0
  | .insert stamp _ :: turns => (if stamp.createdAt ≤ c then 1 else 0) + inserted c turns
  | .drain _ :: turns => inserted c turns

/-- The PENDING rows with a `created_at` up to `c`. -/
def ahead (outbox : Outbox) (c : ℕ) : ℕ :=
  outbox.rows.countP fun row => row.status = .pending ∧ row.createdAt ≤ c

/-! ## One drain -/

variable {svc : Service} {relay : Relay} {planner : Planner} {outcome : Uuid → Bool}

/-- The outbox after the rows are marked, one after the other. -/
def markAll (outbox : Outbox) (rows : List OutboxRow) : Outbox :=
  rows.foldl (fun outbox row => markPublished outbox row.id) outbox

/-- What a drain can do with the PENDING rows, in their order : mark as many as the limit
allows, or those before the first that it fails to publish. -/
inductive Drains (outcome : Uuid → Bool) (limit : ℕ) (outbox : Outbox) (queue : List OutboxRow) :
    Bool → Outbox → Prop
  | published {done rest : List OutboxRow} (hqueue : queue = done ++ rest)
      (hdone : ∀ row ∈ done, outcome row.id = true) (hend : done.length = limit ∨ rest = []) :
      Drains outcome limit outbox queue true (markAll outbox done)
  | stopped {done rest : List OutboxRow} {row : OutboxRow} (hqueue : queue = done ++ row :: rest)
      (hdone : ∀ row ∈ done, outcome row.id = true) (hrow : outcome row.id = false) :
      Drains outcome limit outbox queue false (markFailed (markAll outbox done) row.id)

/-- The loop of a drain, once the rows `done` are marked. -/
theorem drains_rows (planner : Planner) (outcome : Uuid → Bool) (failure : Bool → RelayError)
    {outbox : Outbox} {limit : ℕ} {tail : List OutboxRow} (rows done : List OutboxRow) (n : ℕ)
    (s : Backlog) (hs : s.outbox = markAll outbox done)
    (hdone : ∀ row ∈ done, outcome row.id = true)
    (hend : (done ++ rows).length = limit ∨ tail = []) :
    Drains outcome limit outbox (done ++ rows ++ tail)
      (((drainRows publishRow failure rows n).run (answer planner outcome) s).1.err = none)
      ((drainRows publishRow failure rows n).run (answer planner outcome) s).2.outbox := by
  induction rows generalizing done n s with
  | nil =>
    rw [List.append_nil] at hend ⊢
    exact hs ▸ .published rfl hdone hend
  | cons row rows ih =>
    rw [drainRows_cons, run_bind]
    change Drains outcome limit outbox _
      ((run _ (afterPublish _ _ _ _ _ (outcome row.id)) _).1.err = none)
      (run (answer planner outcome) (afterPublish _ _ _ _ _ (outcome row.id)) _).2.outbox
    cases hrow : outcome row.id with
    | false =>
      have hqueue : done ++ row :: rows ++ tail = done ++ row :: (rows ++ tail) := by
        rw [List.append_assoc, List.cons_append]
      have hstop : Drains outcome limit outbox _ false (markFailed (markAll outbox done) row.id) :=
        .stopped hqueue hdone hrow
      rw [← hs] at hstop
      exact hstop
    | true =>
      have hsplit : done ++ row :: rows = done ++ [row] ++ rows := by
        rw [List.append_assoc, List.singleton_append]
      rw [hsplit] at hend ⊢
      refine ih (done ++ [row]) (n + 1)
        { outbox := markPublished s.outbox row.id, sent := s.sent ++ [row.record] } ?_ ?_ hend
      · rw [hs, markAll, markAll, List.foldl_append]
        rfl
      · intro r hr
        obtain hr | hr := List.mem_append.mp hr
        · exact hdone r hr
        · rw [List.mem_singleton.mp hr]
          exact hrow

/-- A drain either cannot fetch its rows and leaves all as it is, or works on the PENDING rows
as the database orders them. -/
theorem cycle_rec {P : Bool → Outbox → Prop} (s : Backlog)
    (hnone : ¬(0 ≤ relay.batchSize ∧ relay.batchSize < 2 ^ 63) → P false s.outbox)
    (hdrain : ∀ ok outbox', Drains outcome relay.batchSize.toNat s.outbox
      (planner.order s.pending) ok outbox' → P ok outbox') :
    P (cycle svc relay planner outcome s).1 (cycle svc relay planner outcome s).2.outbox := by
  rw [cycle, Service.drainOnce_eq, run_drain, limitRows]
  split_ifs with hrange
  · refine hdrain _ _ ?_
    have hend : ([] ++ (planner.order s.pending).take relay.batchSize.toNat).length =
        relay.batchSize.toNat ∨ (planner.order s.pending).drop relay.batchSize.toNat = [] := by
      rw [List.nil_append, List.length_take, List.drop_eq_nil_iff]
      omega
    have hdrains := drains_rows planner outcome svc.failure
      ((planner.order s.pending).take relay.batchSize.toNat) [] 0 s rfl (by simp) hend
    rw [List.nil_append, List.take_append_drop] at hdrains
    exact hdrains
  · exact hnone hrange

/-! ## Marks -/

theorem find?_markAll (outbox : Outbox) (rows : List OutboxRow) (id : Uuid) :
    (markAll outbox rows).find? id =
      (outbox.find? id).map fun row =>
        if id ∈ rows.map (·.id) then { row with status := .published } else row := by
  induction rows generalizing outbox with
  | nil => exact Option.map_id'.symm
  | cons first rows ih =>
    rw [markAll, List.foldl_cons, ← markAll, ih, markPublished, Table.find?_update, List.map_cons]
    by_cases hid : id = first.id
    · subst hid
      cases outbox.find? first.id <;> simp
    · simp [hid]

/-- The PENDING rows are those of the outbox that are PENDING. -/
theorem mem_pending {s : Backlog} {row : OutboxRow} :
    row ∈ s.pending ↔ s.outbox.find? row.id = some row ∧ row.status = .pending := by
  rw [pending, List.mem_filter, Table.mem_iff_find?, decide_eq_true_eq]

theorem nodup_order (planner : Planner) (s : Backlog) :
    ((planner.order s.pending).map (·.id)).Nodup := by
  refine (((planner.perm s.pending).map _).nodup_iff).mpr ?_
  exact s.outbox.nodup.sublist (List.filter_sublist.map _)

/-- The rows that a drain works on are PENDING in the outbox. -/
theorem find?_of_mem_order {s : Backlog} {row : OutboxRow} (h : row ∈ planner.order s.pending) :
    s.outbox.find? row.id = some row ∧ row.status = .pending :=
  mem_pending.mp ((planner.perm s.pending).mem_iff.mp h)

/-- Marking PENDING rows takes them out of the rows ahead. -/
theorem ahead_markAll {c : ℕ} (rows : List OutboxRow) (outbox : Outbox)
    (hnodup : (rows.map (·.id)).Nodup)
    (hrows : ∀ row ∈ rows, outbox.find? row.id = some row ∧ row.status = .pending)
    (hle : ∀ row ∈ rows, row.createdAt ≤ c) :
    ahead (markAll outbox rows) c + rows.length = ahead outbox c := by
  induction rows generalizing outbox with
  | nil => rfl
  | cons first rows ih =>
    obtain ⟨hnot, hnodup⟩ := List.nodup_cons.mp hnodup
    obtain ⟨hfirst, hpending⟩ := hrows first List.mem_cons_self
    have hrest := ih (markPublished outbox first.id) hnodup ?_ fun row hrow =>
      hle row (List.mem_cons_of_mem _ hrow)
    · have hcount := Table.countP_update hfirst (fun r => { r with status := .published })
        (fun _ => rfl) fun row => row.status = .pending ∧ row.createdAt ≤ c
      simp only [hpending, hle first List.mem_cons_self, and_self, decide_true, if_true,
        reduceCtorEq, false_and, decide_false, Bool.false_eq_true, if_false, add_zero] at hcount
      have hmark : ahead (markPublished outbox first.id) c + 1 = ahead outbox c := hcount
      have hall : markAll outbox (first :: rows) =
        markAll (markPublished outbox first.id) rows := rfl
      rw [hall, List.length_cons]
      omega
    · intro row hrow
      obtain ⟨hfind, hst⟩ := hrows row (List.mem_cons_of_mem _ hrow)
      have hne : row.id ≠ first.id := fun heq => hnot (List.mem_map.mpr ⟨row, hrow, heq⟩)
      rw [markPublished, Table.find?_update, if_neg hne]
      exact ⟨hfind, hst⟩

theorem ahead_markFailed (outbox : Outbox) (id : Uuid) (c : ℕ) :
    ahead (markFailed outbox id) c = ahead outbox c := by
  rw [ahead, markFailed, Table.rows_update, List.countP_map]
  refine List.countP_congr fun row _ => ?_
  simp only [Function.comp_apply]
  split_ifs <;> rfl

/-! ## Waiting rows -/

/-- The row is PENDING since `c`. -/
def Waits (outbox : Outbox) (id : Uuid) (c : ℕ) : Prop :=
  ∃ row, outbox.find? id = some row ∧ row.status = .pending ∧ row.createdAt = c

theorem Waits.markFailed {outbox : Outbox} {id : Uuid} {c : ℕ} (h : Waits outbox id c)
    (id' : Uuid) : Waits (markFailed outbox id') id c := by
  obtain ⟨row, hrow, hst, hat⟩ := h
  rw [Waits, Choreography.markFailed, Table.find?_update]
  split_ifs with hid
  · subst hid
    exact ⟨_, Option.map_eq_some_iff.mpr ⟨row, hrow, rfl⟩, hst, hat⟩
  · exact ⟨row, hrow, hst, hat⟩

/-- A waiting row is one of the rows ahead. -/
theorem Waits.ahead_pos {outbox : Outbox} {id : Uuid} {c : ℕ} (h : Waits outbox id c) :
    0 < ahead outbox c := by
  obtain ⟨row, hrow, hst, hat⟩ := h
  refine List.countP_pos_iff.mpr ⟨row, (Table.find?_eq_some.mp hrow).1, ?_⟩
  exact decide_eq_true ⟨hst, hat.le⟩

section Queue

variable {s : Backlog} {id : Uuid} {c : ℕ} {done rest : List OutboxRow}

theorem Waits.published_markAll (h : Waits s.outbox id c) (hmem : id ∈ done.map (·.id)) :
    Relays.Published (markAll s.outbox done) id := by
  obtain ⟨row, hrow, -, -⟩ := h
  rw [Relays.Published, find?_markAll, hrow, Option.map_some, if_pos hmem]
  rfl

theorem Waits.markAll (h : Waits s.outbox id c) (hnot : id ∉ done.map (·.id)) :
    Waits (markAll s.outbox done) id c := by
  obtain ⟨row, hrow, hst, hat⟩ := h
  refine ⟨row, ?_, hst, hat⟩
  rw [find?_markAll, hrow, Option.map_some, if_neg hnot]

/-- A row that waits and is not among the first of the queue is among the others. -/
theorem Waits.mem_rest (h : Waits s.outbox id c) (hqueue : planner.order s.pending = done ++ rest)
    (hnot : id ∉ done.map (·.id)) : ∃ row ∈ rest, row.createdAt = c := by
  obtain ⟨row, hrow, hst, hat⟩ := h
  have hid : row.id = id := (Table.find?_eq_some.mp hrow).2
  have hmem := (planner.perm s.pending).mem_iff.mpr (mem_pending.mpr ⟨hid ▸ hrow, hst⟩)
  rw [hqueue, List.mem_append] at hmem
  refine ⟨row, hmem.resolve_left fun hr => hnot (List.mem_map.mpr ⟨row, hr, hid⟩), hat⟩

/-- Before a row that waits on, only rows are marked that are not later. -/
theorem Waits.le_of_mem (h : Waits s.outbox id c) (hqueue : planner.order s.pending = done ++ rest)
    (hnot : id ∉ done.map (·.id)) {r : OutboxRow} (hr : r ∈ done) : r.createdAt ≤ c := by
  obtain ⟨row, hmem, rfl⟩ := h.mem_rest hqueue hnot
  have hsorted := planner.sorted s.pending
  rw [hqueue, List.pairwise_append] at hsorted
  exact hsorted.2.2 r hr row hmem

theorem Waits.ahead_markAll (h : Waits s.outbox id c)
    (hqueue : planner.order s.pending = done ++ rest) (hnot : id ∉ done.map (·.id)) :
    ahead (Backlog.markAll s.outbox done) c + done.length = ahead s.outbox c := by
  refine Backlog.ahead_markAll done s.outbox ?_ (fun r hr => ?_) fun r hr =>
    h.le_of_mem hqueue hnot hr
  · have hnodup := nodup_order planner s
    rw [hqueue, List.map_append] at hnodup
    exact (List.nodup_append.mp hnodup).1
  · have horder : r ∈ planner.order s.pending := hqueue ▸ List.mem_append_left _ hr
    exact find?_of_mem_order horder

end Queue

/-- A drain publishes a row that waits, or takes rows away that are ahead of it : as many as
its limit, if it succeeds. -/
theorem Waits.cycle {s : Backlog} {id : Uuid} {c : ℕ} (h : Waits s.outbox id c) (svc : Service)
    (relay : Relay) (planner : Planner) (outcome : Uuid → Bool) :
    Relays.Published (cycle svc relay planner outcome s).2.outbox id ∨
      Waits (cycle svc relay planner outcome s).2.outbox id c ∧
        ahead (cycle svc relay planner outcome s).2.outbox c +
            relay.batchSize.toNat *
              (if (cycle svc relay planner outcome s).1 = true then 1 else 0) ≤
          ahead s.outbox c := by
  refine cycle_rec (P := fun ok outbox' => Relays.Published outbox' id ∨ Waits outbox' id c ∧
    ahead outbox' c + relay.batchSize.toNat * (if ok = true then 1 else 0) ≤ ahead s.outbox c)
    s (fun _ => Or.inr ⟨h, le_of_eq (by simp)⟩) fun ok outbox' hdrains => ?_
  cases hdrains with
  | @published done rest hqueue _ hend =>
    by_cases hmem : id ∈ done.map (·.id)
    · exact Or.inl (h.published_markAll hmem)
    · obtain ⟨row, hrow, -⟩ := h.mem_rest hqueue hmem
      have hlen := hend.resolve_right (List.ne_nil_of_mem hrow)
      have hahead := h.ahead_markAll hqueue hmem
      exact Or.inr ⟨h.markAll hmem, by rw [if_pos rfl]; omega⟩
  | @stopped done rest row hqueue _ _ =>
    by_cases hmem : id ∈ done.map (·.id)
    · exact Or.inl ((h.published_markAll hmem).mono (kept_markFailed _ _))
    · have hahead := h.ahead_markAll hqueue hmem
      refine Or.inr ⟨(h.markAll hmem).markFailed _, ?_⟩
      rw [ahead_markFailed, if_neg Bool.false_ne_true]
      omega

/-- An insert adds its row, or nothing. -/
theorem rows_turn_insert (svc : Service) (relay : Relay) (planner : Planner) (s : Backlog)
    (stamp : Stamp) (ob : OutboxInsert) :
    (turn svc relay planner s (.insert stamp ob)).outbox.rows = s.outbox.rows ∨
      (turn svc relay planner s (.insert stamp ob)).outbox.rows =
        s.outbox.rows ++ [ob.row stamp] := by
  rw [turn]
  cases hins : insertOutbox stamp s.outbox ob with
  | error _ => exact Or.inl rfl
  | ok outbox => exact Or.inr (insertOutbox_eq_ok.mp hins).2

theorem Waits.insert {s : Backlog} {id : Uuid} {c : ℕ} (h : Waits s.outbox id c) (svc : Service)
    (relay : Relay) (planner : Planner) (stamp : Stamp) (ob : OutboxInsert) :
    Waits (turn svc relay planner s (.insert stamp ob)).outbox id c ∧
      ahead (turn svc relay planner s (.insert stamp ob)).outbox c ≤
        ahead s.outbox c + if stamp.createdAt ≤ c then 1 else 0 := by
  obtain ⟨row, hrow, hst, hat⟩ := h
  obtain ⟨hmem, hid⟩ := Table.find?_eq_some.mp hrow
  rw [ahead, ahead]
  obtain hrows | hrows := rows_turn_insert svc relay planner s stamp ob
  · refine ⟨⟨row, Table.find?_eq_some.mpr ⟨hrows ▸ hmem, hid⟩, hst, hat⟩, ?_⟩
    rw [hrows]
    exact Nat.le_add_right _ _
  · refine ⟨⟨row, Table.find?_eq_some.mpr ⟨?_, hid⟩, hst, hat⟩, ?_⟩
    · rw [hrows]
      exact List.mem_append_left _ hmem
    · rw [hrows, List.countP_append, List.countP_singleton]
      exact Nat.add_le_add_left (by simp [OutboxInsert.row]) _

theorem kept_markAll (rows : List OutboxRow) (outbox : Outbox) :
    Kept outbox (markAll outbox rows) := by
  induction rows generalizing outbox with
  | nil => exact .refl outbox
  | cons row rows ih => exact (kept_markPublished outbox row.id).trans (ih _)

/-- What a turn leaves of the rows of an outbox. -/
theorem kept_turn (s : Backlog) (t : Turn) :
    Kept s.outbox (turn svc relay planner s t).outbox := by
  cases t with
  | insert stamp ob =>
    rw [turn]
    cases hins : insertOutbox stamp s.outbox ob with
    | error _ => exact .refl _
    | ok outbox => exact kept_insertOutbox hins
  | drain outcome =>
    refine cycle_rec (P := fun _ outbox' => Kept s.outbox outbox') s (fun _ => .refl _)
      fun ok outbox' hdrains => ?_
    cases hdrains with
    | published _ _ _ => exact kept_markAll _ _
    | stopped _ _ _ => exact (kept_markAll _ _).trans (kept_markFailed _ _)

/-- A row that waits is published, or waits behind as many rows less as the drains that
succeeded have taken away. -/
theorem Waits.run {s : Backlog} {id : Uuid} {c : ℕ} (h : Waits s.outbox id c) (svc : Service)
    (relay : Relay) (planner : Planner) (turns : List Turn) :
    Relays.Published (runFrom (turn svc relay planner) s turns).outbox id ∨
      Waits (runFrom (turn svc relay planner) s turns).outbox id c ∧
        ahead (runFrom (turn svc relay planner) s turns).outbox c +
            relay.batchSize.toNat * drains svc relay planner true s turns ≤
          ahead s.outbox c + inserted c turns := by
  induction turns generalizing s with
  | nil => exact Or.inr ⟨h, le_refl _⟩
  | cons t turns ih =>
    rw [runFrom_cons]
    cases t with
    | insert stamp ob =>
      obtain ⟨hwaits, hle⟩ := h.insert svc relay planner stamp ob
      refine (ih hwaits).imp_right fun hrest => ⟨hrest.1, ?_⟩
      have hsum := hrest.2
      rw [drains, inserted]
      omega
    | drain outcome =>
      obtain hpub | ⟨hwaits, hle⟩ :=
        h.cycle svc relay planner outcome
      · left
        exact invariant_runFrom (I := fun s' => Relays.Published s'.outbox id)
          (fun s' t hp => hp.mono (kept_turn s' t)) turns hpub
      · refine (ih hwaits).imp_right fun hrest => ⟨hrest.1, ?_⟩
        have hsum := hrest.2
        have hturn : turn svc relay planner s (.drain outcome) =
          (Backlog.cycle svc relay planner outcome s).2 := rfl
        rw [drains, inserted, Nat.mul_add, hturn]
        omega

/-- A row is published once the drains that succeed have room for the rows that are ahead of
it, and for those that come in with an earlier `created_at`. -/
theorem published_within (svc : Service) (relay : Relay) (planner : Planner) (s : Backlog)
    (row : OutboxRow) (hrow : s.outbox.find? row.id = some row) (turns : List Turn)
    (hroom : ahead s.outbox row.createdAt + inserted row.createdAt turns ≤
      relay.batchSize.toNat * drains svc relay planner true s turns) :
    Relays.Published (runFrom (turn svc relay planner) s turns).outbox row.id := by
  cases hst : row.status with
  | published =>
    refine invariant_runFrom (I := fun s' => Relays.Published s'.outbox row.id)
      (fun s' t hp => hp.mono (kept_turn s' t)) turns ?_
    rw [Relays.Published, hrow, Option.map_some, hst]
  | pending =>
    have hwaits : Waits s.outbox row.id row.createdAt := ⟨row, hrow, hst, rfl⟩
    obtain hpub | ⟨hend, hle⟩ := hwaits.run svc relay planner turns
    · exact hpub
    · have hpos := hend.ahead_pos
      omega

/-- An event that comes in after the rows of `ofLength`. -/
def laterInsert : Turn :=
  .insert { Stamp.ofKey "" 3 with createdAt := 1 }
    ⟨"order", "", "", .orderCreated, Envelope.new (.ofKey "" 3) "" "" "" .null, ""⟩

/-- Three rows, two a drain : the last is published by the second drain that succeeds. -/
theorem published_within_second :
    Relays.Published (runFrom (turn .order ⟨2⟩ insertionPlanner) ⟨ofLength 3 (by decide), []⟩
      [.drain fun _ => true, laterInsert, .drain fun _ => false, .drain fun _ => true]).outbox 2 :=
  published_within .order ⟨2⟩ insertionPlanner ⟨ofLength 3 (by decide), []⟩ (rowOf 2)
    (by decide +kernel) _ (by decide +kernel)

/-! ## Rows that cannot be published -/

/-- No row later than `c` has been published since. -/
def NotOvertaken (c : ℕ) (outbox outbox' : Outbox) : Prop :=
  ∀ id row, outbox'.find? id = some row → c < row.createdAt → row.status = .published →
    Relays.Published outbox id

theorem NotOvertaken.refl (c : ℕ) (outbox : Outbox) : NotOvertaken c outbox outbox := by
  intro id row hrow _ hst
  rw [Relays.Published, hrow, Option.map_some, hst]

theorem NotOvertaken.trans {c : ℕ} {outbox outbox' outbox'' : Outbox}
    (h : NotOvertaken c outbox outbox') (h' : NotOvertaken c outbox' outbox'')
    (hkept : Kept outbox' outbox'') : NotOvertaken c outbox outbox'' := by
  intro id row hrow hlt hst
  obtain ⟨row', hrow', hst'⟩ := Option.map_eq_some_iff.mp (h' id row hrow hlt hst)
  obtain ⟨row'', hrow'', -, hat, -⟩ := hkept id row' hrow'
  obtain rfl : row = row'' := Option.some.inj (hrow.symm.trans hrow'')
  exact h id row' hrow' (hat ▸ hlt) hst'

/-- Marking the first of the queue, without a row that waits, publishes none later than it. -/
theorem Waits.notOvertaken_markAll {s : Backlog} {id : Uuid} {c : ℕ} {done rest : List OutboxRow}
    (h : Waits s.outbox id c) (hqueue : planner.order s.pending = done ++ rest)
    (hnot : id ∉ done.map (·.id)) : NotOvertaken c s.outbox (Backlog.markAll s.outbox done) := by
  intro id' row hrow hlt hst
  rw [find?_markAll] at hrow
  obtain ⟨row', hrow', rfl⟩ := Option.map_eq_some_iff.mp hrow
  by_cases hmem : id' ∈ done.map (·.id)
  · -- A marked row is one of the queue, before the row that waits.
    obtain ⟨r, hr, rfl⟩ := List.mem_map.mp hmem
    have horder : r ∈ planner.order s.pending := hqueue ▸ List.mem_append_left _ hr
    obtain rfl : r = row' := Option.some.inj ((find?_of_mem_order horder).1.symm.trans hrow')
    rw [if_pos hmem] at hlt
    exact absurd (h.le_of_mem hqueue hnot hr) (not_le.mpr hlt)
  · rw [if_neg hmem] at hlt hst
    exact NotOvertaken.refl c s.outbox id' row' hrow' hlt hst

theorem notOvertaken_markFailed (c : ℕ) (outbox : Outbox) (id : Uuid) :
    NotOvertaken c outbox (markFailed outbox id) := by
  intro id' row hrow hlt hst
  rw [markFailed, Table.find?_update] at hrow
  split_ifs at hrow with hid
  · obtain ⟨row', hrow', rfl⟩ := Option.map_eq_some_iff.mp hrow
    exact NotOvertaken.refl c outbox id' row' (hid ▸ hrow') hlt hst
  · exact NotOvertaken.refl c outbox id' row hrow hlt hst

/-- A turn in which a waiting row cannot be published leaves it waiting, and publishes none
that is later. -/
theorem Waits.blocked {s : Backlog} {id : Uuid} {c : ℕ} (h : Waits s.outbox id c) (svc : Service)
    (relay : Relay) (planner : Planner) (t : Turn)
    (hfail : ∀ outcome, t = .drain outcome → outcome id = false) :
    Waits (turn svc relay planner s t).outbox id c ∧
      NotOvertaken c s.outbox (turn svc relay planner s t).outbox := by
  cases t with
  | insert stamp ob =>
    refine ⟨(h.insert svc relay planner stamp ob).1, fun id' row hrow hlt hst => ?_⟩
    obtain ⟨hmem, hid⟩ := Table.find?_eq_some.mp hrow
    have hold : row ∈ s.outbox.rows := by
      obtain hrows | hrows := rows_turn_insert svc relay planner s stamp ob
      · exact hrows ▸ hmem
      · rw [hrows, List.mem_append, List.mem_singleton] at hmem
        refine hmem.resolve_right ?_
        rintro rfl
        exact absurd hst OutboxStatus.noConfusion
    exact NotOvertaken.refl c s.outbox id' row (Table.find?_eq_some.mpr ⟨hold, hid⟩) hlt hst
  | drain outcome =>
    refine cycle_rec (P := fun _ outbox' => Waits outbox' id c ∧ NotOvertaken c s.outbox outbox')
      s (fun _ => ⟨h, .refl c s.outbox⟩) fun ok outbox' hdrains => ?_
    have hnot : ∀ done : List OutboxRow, (∀ row ∈ done, outcome row.id = true) →
        id ∉ done.map (·.id) := by
      intro done hdone hmem
      obtain ⟨r, hr, rfl⟩ := List.mem_map.mp hmem
      exact Bool.false_ne_true ((hfail outcome rfl).symm.trans (hdone r hr))
    cases hdrains with
    | @published done rest hqueue hdone _ =>
      exact ⟨h.markAll (hnot done hdone), h.notOvertaken_markAll hqueue (hnot done hdone)⟩
    | @stopped done rest row hqueue hdone _ =>
      refine ⟨(h.markAll (hnot done hdone)).markFailed _, ?_⟩
      exact (h.notOvertaken_markAll hqueue (hnot done hdone)).trans
        (notOvertaken_markFailed c _ _) (kept_markFailed _ _)

/-- A row whose publish fails in every drain stays PENDING, and no row that is later becomes
PUBLISHED meanwhile, whatever can be published besides and whatever is inserted. -/
theorem no_overtaking (svc : Service) (relay : Relay) (planner : Planner) (s : Backlog)
    (row : OutboxRow) (hrow : s.outbox.find? row.id = some row) (hst : row.status = .pending)
    (turns : List Turn) (hfail : ∀ outcome, Turn.drain outcome ∈ turns → outcome row.id = false) :
    Waits (runFrom (turn svc relay planner) s turns).outbox row.id row.createdAt ∧
      NotOvertaken row.createdAt s.outbox (runFrom (turn svc relay planner) s turns).outbox := by
  have hwaits : Waits s.outbox row.id row.createdAt := ⟨row, hrow, hst, rfl⟩
  clear hrow hst
  generalize row.id = id, row.createdAt = c at hwaits hfail ⊢
  induction turns using List.reverseRecOn with
  | nil => exact ⟨hwaits, .refl c s.outbox⟩
  | append_singleton turns t ih =>
    obtain ⟨hwaits', hlater⟩ := ih fun outcome hmem => hfail outcome (List.mem_append_left _ hmem)
    rw [runFrom_append, runFrom_cons, runFrom_nil]
    obtain ⟨hstep, hlater'⟩ := hwaits'.blocked svc relay planner t
      fun outcome ht => hfail outcome (by rw [ht]; simp)
    exact ⟨hstep, hlater.trans hlater' (kept_turn _ t)⟩

/-- The first of three rows cannot be published : what comes in meanwhile waits behind it. -/
theorem no_overtaking_first :
    Waits (runFrom (turn .order ⟨2⟩ insertionPlanner) ⟨ofLength 3 (by decide), []⟩
        [.drain fun id => id ≠ 0, laterInsert, .drain fun id => id ≠ 0]).outbox 0 0 ∧
      NotOvertaken 0 (ofLength 3 (by decide))
        (runFrom (turn .order ⟨2⟩ insertionPlanner) ⟨ofLength 3 (by decide), []⟩
          [.drain fun id => id ≠ 0, laterInsert, .drain fun id => id ≠ 0]).outbox := by
  refine no_overtaking .order ⟨2⟩ insertionPlanner ⟨ofLength 3 (by decide), []⟩ (rowOf 0)
    (by decide +kernel) rfl _ ?_
  intro outcome hmem
  simp only [laterInsert, List.mem_cons, Turn.drain.injEq, reduceCtorEq, List.not_mem_nil,
    or_false, false_or, or_self] at hmem
  rw [hmem]
  rfl

/-! ## Attempts -/

/-- The attempts of all rows. -/
def attempts (outbox : Outbox) : ℤ := outbox.sum fun row => row.attempts

theorem attempts_markAll (rows : List OutboxRow) (outbox : Outbox) :
    attempts (markAll outbox rows) = attempts outbox := by
  induction rows generalizing outbox with
  | nil => rfl
  | cons row rows ih =>
    refine (ih (markPublished outbox row.id)).trans ?_
    rw [attempts, attempts, Table.sum, Table.sum, markPublished, Table.rows_update, List.map_map]
    refine congrArg List.sum (List.map_congr_left fun r _ => ?_)
    simp only [Function.comp_apply]
    split_ifs <;> rfl

/-- A drain that fails counts one attempt, and one that succeeds none. -/
theorem attempts_cycle (svc : Service) (planner : Planner) (outcome : Uuid → Bool)
    (hrange : 0 ≤ relay.batchSize ∧ relay.batchSize < 2 ^ 63) (s : Backlog) :
    attempts (cycle svc relay planner outcome s).2.outbox =
      attempts s.outbox + if (cycle svc relay planner outcome s).1 = false then 1 else 0 := by
  refine cycle_rec (P := fun ok outbox' =>
    attempts outbox' = attempts s.outbox + if ok = false then 1 else 0) s
    (fun hnone => absurd hrange hnone) fun ok outbox' hdrains => ?_
  cases hdrains with
  | @published done rest _ _ _ =>
    rw [attempts_markAll, if_neg (by decide), add_zero]
  | @stopped done rest row hqueue _ _ =>
    have hrow : row ∈ planner.order s.pending := by
      rw [hqueue]
      exact List.mem_append_right _ List.mem_cons_self
    have hfind : ∃ row', (markAll s.outbox done).find? row.id = some row' := by
      rw [find?_markAll, (find?_of_mem_order hrow).1]
      exact ⟨_, rfl⟩
    obtain ⟨row', hrow'⟩ := hfind
    have hsum := Table.sum_update hrow' (fun r => { r with attempts := r.attempts + 1 })
      (fun _ => rfl) fun r => (r.attempts : ℤ)
    rw [if_pos rfl, ← attempts_markAll done s.outbox]
    refine hsum.trans ?_
    rw [attempts]
    push_cast
    ring

/-- The attempts of the rows go up by the number of drains that fail. -/
theorem attempts_eq_failures (svc : Service) (relay : Relay) (planner : Planner)
    (hrange : 0 ≤ relay.batchSize ∧ relay.batchSize < 2 ^ 63) (s : Backlog) (turns : List Turn) :
    attempts (runFrom (turn svc relay planner) s turns).outbox =
      attempts s.outbox + drains svc relay planner false s turns := by
  induction turns generalizing s with
  | nil => exact (add_zero _).symm
  | cons t turns ih =>
    rw [runFrom_cons, ih]
    cases t with
    | insert stamp ob =>
      have hinsert : attempts (turn svc relay planner s (.insert stamp ob)).outbox =
          attempts s.outbox := by
        rw [attempts, attempts, Table.sum, Table.sum]
        obtain hrows | hrows := rows_turn_insert svc relay planner s stamp ob
        · rw [hrows]
        · rw [hrows, List.map_append, List.sum_append]
          exact add_zero _
      rw [hinsert, drains]
    | drain outcome =>
      have hcycle := attempts_cycle svc planner outcome hrange s
      have hturn : turn svc relay planner s (.drain outcome) =
        (cycle svc relay planner outcome s).2 := rfl
      rw [drains, hturn, hcycle]
      push_cast
      ring

theorem attempts_eq_failures_two :
    attempts (runFrom (turn .order ⟨2⟩ insertionPlanner) ⟨ofLength 3 (by decide), []⟩
        [.drain fun _ => false, .drain fun _ => true, .drain fun id => id ≠ 2]).outbox =
      attempts (ofLength 3 (by decide)) +
        drains .order ⟨2⟩ insertionPlanner false ⟨ofLength 3 (by decide), []⟩
          [.drain fun _ => false, .drain fun _ => true, .drain fun id => id ≠ 2] :=
  attempts_eq_failures .order ⟨2⟩ insertionPlanner ⟨by decide, by decide⟩ _ _

end Choreography.Backlog
