import Choreography.Order
import Choreography.Serializability

/-!
# Concurrent event transactions of Order

`Store.HandleEvent` as a program over its SQL statements, for any number of calls at the
same time. An INSERT into `processed_messages` waits for an open transaction that has
inserted the same key, and a SELECT … FOR UPDATE or an UPDATE for one that has locked the
same order. `exec_ofEvent` connects the program to `Store.handleEvent`.

The calls are serializable, and do not deadlock (`handleEvent_serializable`) : a call that
waits for a key holds nothing, one that waits for an order holds its key only, and one
that has its order waits for nothing.
-/

set_option linter.unusedSectionVars false

namespace Choreography.OrderService

open Prog

/-! ## The program -/

/-- The statements of `Store.HandleEvent`. -/
inductive Sql
  /-- `INSERT INTO processed_messages … ON CONFLICT DO NOTHING`; whether a row was inserted. -/
  | insertProcessed (idemKey consumer : String)
  /-- `SELECT status FROM orders WHERE id = … FOR UPDATE`. -/
  | selectStatus (orderId : String)
  | updateStatus (orderId : String) (next : Status)
  | insertOutbox (stamp : Stamp) (ob : OutboxInsert)

abbrev Sql.Answer : Sql → Type
  | .insertProcessed .. => Except SqlError Bool
  | .selectStatus _ => Except SqlError (Option Status)
  | .updateStatus .. | .insertOutbox .. => Except SqlError Unit

abbrev EventTxFunc := Status → Except Error (Status × List OutboxInsert × Bool)

/-- The arguments of `Store.HandleEvent`, and what the rows that it inserts draw. -/
structure Call where
  idemKey : String
  consumer : String
  orderId : String
  fn : EventTxFunc
  stamps : ℕ → Stamp

/-- Enqueue the events, from the `n`-th row on. -/
def insertAll (stamps : ℕ → Stamp) : ℕ → List OutboxInsert → Prog Sql.Answer (Except Error Bool)
  | _, [] => return .ok false
  | n, ob :: rest => do
    match ← request (Sql.insertOutbox (stamps n) ob) with
    | .error e => return .error (.sql e)
    | .ok _ => insertAll stamps (n + 1) rest

/-- The rest of the transaction, with the status of the order. -/
def Call.transition (c : Call) (cur : Status) : Prog Sql.Answer (Except Error Bool) := do
  match c.fn cur with
  | .error e => return .error e
  | .ok (next, emit, changed) =>
    if !changed then return .ok false
    else
      match ← request (Sql.updateStatus c.orderId next) with
      | .error e => return .error (.sql e)
      | .ok _ => insertAll c.stamps 0 emit

/-- The rest of the transaction, with the key of the event inserted. -/
def Call.handle (c : Call) : Prog Sql.Answer (Except Error Bool) := do
  match ← request (Sql.selectStatus c.orderId) with
  | .error e => return .error (.sql e)
  | .ok none => return .error .notFound
  | .ok (some cur) => c.transition cur

/-- What the transaction of `Store.HandleEvent` does, up to its end; `true` for a
duplicate. -/
def Call.body (c : Call) : Prog Sql.Answer (Except Error Bool) := do
  match ← request (Sql.insertProcessed c.idemKey c.consumer) with
  | .error e => return .error (.sql e)
  | .ok false => return .ok true
  | .ok true => c.handle

/-- `BeginFunc` commits unless there is an error. -/
def committed : Except Error Bool → Bool
  | .ok _ => true
  | .error _ => false

/-! ## Writes -/

/-- What a transaction has written and locked. -/
structure Writes where
  keys : List (String × String)
  locks : List Uuid
  statuses : List (Uuid × Status)
  rows : List OutboxRow
  /-- An UPDATE locks its row. -/
  covered : ∀ p ∈ statuses, p.1 ∈ locks

namespace Writes

def empty : Writes := ⟨[], [], [], [], fun _ h => nomatch h⟩

/-- The tables with the writes. -/
def apply (d : Writes) (db : Db) : Db where
  orders := d.statuses.foldl (fun orders p => setStatus orders p.1 p.2) db.orders
  processed := d.keys ++ db.processed
  outbox := d.rows.foldl (fun outbox row => (outbox.insert row).getD outbox) db.outbox

def lock (d : Writes) (u : Uuid) : Writes :=
  { d with
    locks := u :: d.locks
    covered := fun p hp => List.mem_cons_of_mem u (d.covered p hp) }

def update (d : Writes) (u : Uuid) (next : Status) : Writes :=
  { d with
    locks := u :: d.locks
    statuses := d.statuses ++ [(u, next)]
    covered := by
      intro p hp
      obtain hp | hp := List.mem_append.mp hp
      · exact List.mem_cons_of_mem u (d.covered p hp)
      · rw [List.mem_singleton.mp hp]
        exact List.mem_cons_self }

/-- What a statement answers, over the committed tables and the writes of its transaction. -/
def answer (db : Db) (d : Writes) : (q : Sql) → q.Answer × Writes
  | .insertProcessed idemKey consumer =>
    if hasNul idemKey || hasNul consumer then (.error .invalidText, d)
    else
      match markProcessed (d.apply db).processed idemKey consumer with
      | none => (.ok false, d)
      | some _ => (.ok true, { d with keys := (idemKey, consumer) :: d.keys })
  | .selectStatus orderId =>
    match uuidIn orderId with
    | none => (.error .invalidText, d)
    | some u =>
      match (d.apply db).orders.find? u with
      | none => (.ok none, d)
      | some o => (.ok (some o.status), d.lock u)
  | .updateStatus orderId next =>
    match uuidIn orderId with
    | none => (.error .invalidText, d)
    | some u =>
      match (d.apply db).orders.find? u with
      | none => (.ok (), d)
      | some _ => (.ok (), d.update u next)
  | .insertOutbox stamp ob =>
    match Choreography.insertOutbox stamp (d.apply db).outbox ob with
    | .error e => (.error e, d)
    | .ok _ => (.ok (), { d with rows := d.rows ++ [ob.row stamp] })

/-- The statement conflicts with the writes of an open transaction. -/
def waits (d : Writes) : Sql → Bool
  | .insertProcessed idemKey consumer => decide ((idemKey, consumer) ∈ d.keys)
  | .selectStatus orderId | .updateStatus orderId _ =>
    match uuidIn orderId with
    | none => false
    | some u => decide (u ∈ d.locks)
  | .insertOutbox stamp _ => decide (stamp.rowId ∈ d.rows.map OutboxRow.id)

/-- The transactions have inserted different keys and rows, and locked different orders. -/
structure Apart (d d' : Writes) : Prop where
  keys : d.keys.Disjoint d'.keys
  locks : d.locks.Disjoint d'.locks
  rows : (d.rows.map OutboxRow.id).Disjoint (d'.rows.map OutboxRow.id)

/-! ## Lookups -/

/-- The row of an order depends on what it was before the updates. -/
theorem find?_statuses_congr {orders orders' : Table Order Order.id} {u : Uuid}
    (h : orders.find? u = orders'.find? u) (statuses : List (Uuid × Status)) :
    (statuses.foldl (fun orders p => setStatus orders p.1 p.2) orders).find? u =
      (statuses.foldl (fun orders p => setStatus orders p.1 p.2) orders').find? u := by
  induction statuses generalizing orders orders' with
  | nil => exact h
  | cons p statuses ih =>
    refine ih ?_
    rw [find?_setStatus, find?_setStatus]
    split_ifs with hu
    · rw [← hu, h]
    · exact h

theorem find?_statuses_of_notMem (orders : Table Order Order.id) {u : Uuid}
    {statuses : List (Uuid × Status)} (h : ∀ p ∈ statuses, p.1 ≠ u) :
    (statuses.foldl (fun orders p => setStatus orders p.1 p.2) orders).find? u =
      orders.find? u := by
  induction statuses generalizing orders with
  | nil => rfl
  | cons p statuses ih =>
    rw [List.foldl_cons, ih _ fun p' hp' => h p' (List.mem_cons_of_mem p hp'), find?_setStatus,
      if_neg (h p List.mem_cons_self).symm]

/-- An UPDATE adds and removes no orders. -/
theorem find?_statuses_eq_none (orders : Table Order Order.id) (u : Uuid)
    (statuses : List (Uuid × Status)) :
    (statuses.foldl (fun orders p => setStatus orders p.1 p.2) orders).find? u = none ↔
      orders.find? u = none := by
  induction statuses generalizing orders with
  | nil => rfl
  | cons p statuses ih =>
    rw [List.foldl_cons, ih, find?_setStatus]
    split_ifs with hu
    · rw [hu, Option.map_eq_none_iff]
    · rfl

theorem find?_rows_eq_none (outbox : Outbox) (id : Uuid) (rows : List OutboxRow) :
    (rows.foldl (fun outbox row => (outbox.insert row).getD outbox) outbox).find? id = none ↔
      outbox.find? id = none ∧ id ∉ rows.map OutboxRow.id := by
  induction rows generalizing outbox with
  | nil => simp
  | cons row rows ih =>
    rw [List.foldl_cons, ih, List.map_cons, List.mem_cons, not_or, ← and_assoc]
    refine and_congr_left fun _ => ?_
    cases hins : outbox.insert row with
    | none =>
      have htaken : outbox.find? row.id ≠ none := fun hnone => by
        obtain ⟨outbox', hins'⟩ := Table.exists_insert hnone
        cases hins.symm.trans hins'
      refine ⟨fun hid => ⟨hid, ?_⟩, fun hid => hid.1⟩
      rintro rfl
      exact htaken hid
    | some outbox' =>
      rw [Option.getD_some, Table.find?_of_insert hins]
      split_ifs with hid
      · simp [hid]
      · simp [hid]

/-- A row is inserted unless its id is taken. -/
theorem answer_insertOutbox (db : Db) (d : Writes) (stamp : Stamp) (ob : OutboxInsert) :
    answer db d (.insertOutbox stamp ob) =
      if (d.apply db).outbox.find? stamp.rowId = none then
        (.ok (), { d with rows := d.rows ++ [ob.row stamp] })
      else (.error .uniqueViolation, d) := by
  rw [answer]
  split_ifs with hfree
  · obtain ⟨outbox, hb⟩ := exists_insertOutbox hfree ob
    rw [hb]
  · rw [insertOutbox_eq_error.mpr ⟨rfl, hfree⟩]

theorem find?_outbox_eq_none (db : Db) (d : Writes) (id : Uuid) :
    (d.apply db).outbox.find? id = none ↔
      db.outbox.find? id = none ∧ id ∉ d.rows.map OutboxRow.id :=
  find?_rows_eq_none db.outbox id d.rows

/-! ## Independence -/

variable {db : Db} {d d' : Writes} {q : Sql}

theorem Apart.symm (h : Apart d d') : Apart d' d :=
  ⟨h.keys.symm, h.locks.symm, h.rows.symm⟩

/-- A statement writes nothing, or adds a key, a lock or a row, and waits for the
transactions that have it. -/
theorem answer_cases (db : Db) (d : Writes) (q : Sql) :
    (answer db d q).2 = d ∨
      (∃ key, (∀ d', waits d' q = decide (key ∈ d'.keys)) ∧
        (answer db d q).2.keys = key :: d.keys ∧ (answer db d q).2.locks = d.locks ∧
        (answer db d q).2.rows = d.rows) ∨
      (∃ u, (∀ d', waits d' q = decide (u ∈ d'.locks)) ∧
        (answer db d q).2.keys = d.keys ∧ (answer db d q).2.locks = u :: d.locks ∧
        (answer db d q).2.rows = d.rows) ∨
      ∃ row : OutboxRow, (∀ d', waits d' q = decide (row.id ∈ d'.rows.map OutboxRow.id)) ∧
        (answer db d q).2.keys = d.keys ∧ (answer db d q).2.locks = d.locks ∧
        (answer db d q).2.rows = d.rows ++ [row] := by
  cases q with
  | insertProcessed idemKey consumer =>
    simp only [answer]
    repeat' split
    · exact Or.inl rfl
    · exact Or.inl rfl
    · exact Or.inr (Or.inl ⟨(idemKey, consumer), fun _ => rfl, rfl, rfl, rfl⟩)
  | selectStatus orderId =>
    simp only [answer, waits]
    split
    · exact Or.inl rfl
    · split
      · exact Or.inl rfl
      · exact Or.inr (Or.inr (Or.inl ⟨_, fun _ => rfl, rfl, rfl, rfl⟩))
  | updateStatus orderId next =>
    simp only [answer, waits]
    split
    · exact Or.inl rfl
    · split
      · exact Or.inl rfl
      · exact Or.inr (Or.inr (Or.inl ⟨_, fun _ => rfl, rfl, rfl, rfl⟩))
  | insertOutbox stamp ob =>
    rw [answer_insertOutbox]
    split_ifs
    · exact Or.inr (Or.inr (Or.inr ⟨ob.row stamp, fun _ => rfl, rfl, rfl, rfl⟩))
    · exact Or.inl rfl

theorem apart_of_answer (h : Apart (answer db d q).2 d') : Apart d d' := by
  obtain ⟨hkeys, hlocks, hrows⟩ := h
  obtain heq | ⟨key, -, hk, hl, hr⟩ | ⟨u, -, hk, hl, hr⟩ | ⟨row, -, hk, hl, hr⟩ :=
    answer_cases db d q
  · rw [heq] at hkeys hlocks hrows
    exact ⟨hkeys, hlocks, hrows⟩
  · rw [hk, List.disjoint_cons_left] at hkeys
    rw [hl] at hlocks
    rw [hr] at hrows
    exact ⟨hkeys.2, hlocks, hrows⟩
  · rw [hk] at hkeys
    rw [hl, List.disjoint_cons_left] at hlocks
    rw [hr] at hrows
    exact ⟨hkeys, hlocks.2, hrows⟩
  · rw [hk] at hkeys
    rw [hl] at hlocks
    rw [hr, List.map_append, List.disjoint_append_left] at hrows
    exact ⟨hkeys, hlocks, hrows.1⟩

/-- A statement that does not wait adds nothing that the other transaction has. -/
theorem apart_answer (h : Apart d d') (hw : waits d' q = false) :
    Apart (answer db d q).2 d' := by
  obtain heq | ⟨key, hwaits, hk, hl, hr⟩ | ⟨u, hwaits, hk, hl, hr⟩ | ⟨row, hwaits, hk, hl, hr⟩ :=
    answer_cases db d q
  · rw [heq]
    exact h
  · have hnew : key ∉ d'.keys := of_decide_eq_false ((hwaits d').symm.trans hw)
    refine ⟨?_, hl ▸ h.locks, hr ▸ h.rows⟩
    rw [hk, List.disjoint_cons_left]
    exact ⟨hnew, h.keys⟩
  · have hnew : u ∉ d'.locks := of_decide_eq_false ((hwaits d').symm.trans hw)
    refine ⟨hk ▸ h.keys, ?_, hr ▸ h.rows⟩
    rw [hl, List.disjoint_cons_left]
    exact ⟨hnew, h.locks⟩
  · have hnew : row.id ∉ d'.rows.map OutboxRow.id :=
      of_decide_eq_false ((hwaits d').symm.trans hw)
    refine ⟨hk ▸ h.keys, hl ▸ h.locks, ?_⟩
    rw [hr, List.map_append, List.disjoint_append_left]
    exact ⟨h.rows, List.singleton_disjoint.mpr hnew⟩

/-- The row of an order that only this transaction has locked is not changed by the other. -/
theorem find?_orders_commit (db : Db) (d d' : Writes) {u : Uuid}
    (h : (d.apply db).orders.find? u ≠ none → u ∉ d'.locks) :
    (d.apply (d'.apply db)).orders.find? u = (d.apply db).orders.find? u := by
  by_cases hnone : (d.apply db).orders.find? u = none
  · rw [hnone]
    have hbase := (find?_statuses_eq_none db.orders u d.statuses).mp hnone
    refine (find?_statuses_eq_none _ u d.statuses).mpr ?_
    exact (find?_statuses_eq_none db.orders u d'.statuses).mpr hbase
  · refine find?_statuses_congr (find?_statuses_of_notMem db.orders fun p hp hu => ?_) d.statuses
    exact h hnone (hu ▸ d'.covered p hp)

/-- A commit of the other transaction does not change what this one is answered. -/
theorem answer_commit (h : Apart (answer db d q).2 d') :
    answer (d'.apply db) d q = answer db d q := by
  cases q with
  | insertProcessed idemKey consumer =>
    simp only [answer] at h ⊢
    split_ifs at h ⊢ with hnul
    · rfl
    · by_cases hmem : (idemKey, consumer) ∈ (d.apply db).processed
      · have hmem' : (idemKey, consumer) ∈ (d.apply (d'.apply db)).processed := by
          simp only [apply, List.mem_append] at hmem ⊢
          exact hmem.imp_right Or.inr
        rw [markProcessed_eq_none.mpr hmem, markProcessed_eq_none.mpr hmem']
      · rw [markProcessed_eq_some.mpr ⟨hmem, rfl⟩] at h ⊢
        have hmem' : (idemKey, consumer) ∉ (d.apply (d'.apply db)).processed := by
          simp only [apply, List.mem_append, not_or] at hmem ⊢
          exact ⟨hmem.1, fun hkey => h.keys List.mem_cons_self hkey, hmem.2⟩
        rw [markProcessed_eq_some.mpr ⟨hmem', rfl⟩]
  | selectStatus orderId =>
    simp only [answer] at h ⊢
    cases hu : uuidIn orderId with
    | none => rfl
    | some u =>
      simp only [hu] at h ⊢
      rw [find?_orders_commit db d d' fun hsome => ?_]
      obtain ⟨o, ho⟩ := Option.ne_none_iff_exists'.mp hsome
      rw [ho] at h
      exact fun hmem => h.locks List.mem_cons_self hmem
  | updateStatus orderId next =>
    simp only [answer] at h ⊢
    cases hu : uuidIn orderId with
    | none => rfl
    | some u =>
      simp only [hu] at h ⊢
      rw [find?_orders_commit db d d' fun hsome => ?_]
      obtain ⟨o, ho⟩ := Option.ne_none_iff_exists'.mp hsome
      rw [ho] at h
      exact fun hmem => h.locks List.mem_cons_self hmem
  | insertOutbox stamp ob =>
    rw [answer_insertOutbox] at h ⊢
    rw [answer_insertOutbox]
    have hiff : (d.apply (d'.apply db)).outbox.find? stamp.rowId = none ↔
        (d.apply db).outbox.find? stamp.rowId = none := by
      rw [find?_outbox_eq_none, find?_outbox_eq_none, find?_outbox_eq_none]
      constructor
      · rintro ⟨⟨hbase, -⟩, hrows⟩
        exact ⟨hbase, hrows⟩
      · intro hfree
        rw [if_pos ((find?_outbox_eq_none db d stamp.rowId).mpr hfree)] at h
        refine ⟨⟨hfree.1, fun hmem => ?_⟩, hfree.2⟩
        exact h.rows (by simp [OutboxInsert.row]) hmem
    simp only [hiff]

end Writes

/-- Postgres with READ COMMITTED, for these statements. All of them lock what they find, so
that every answer is firm. -/
def postgres : Engine Sql.Answer Db Writes where
  start := .empty
  answer := Writes.answer
  commit db d := d.apply db
  waits _ _ d' q := d'.waits q
  Apart := Writes.Apart
  Fits _ _ := True
  Firm _ _ _ := True
  Guarded _ := False
  apart_start _ := ⟨List.disjoint_nil_left _, List.disjoint_nil_left _, List.disjoint_nil_left _⟩
  apart_symm := Writes.Apart.symm
  apart_of_answer := Writes.apart_of_answer
  apart_answer := Writes.apart_answer
  fits_start _ := trivial
  fits_answer := id
  fits_commit h _ _ := h
  answer_commit _ _ h := ⟨Writes.answer_commit h, trivial⟩
  answer_of_not_firm h := absurd trivial h
  commit_comm h := h.elim
  answer_guarded h := h.elim

/-! ## Where a call is -/

section

variable {db : Db} {stamps : ℕ → Stamp} {d d' : Writes} {p : Prog Sql.Answer (Except Error Bool)}

/-- The rows of the loop draw their ids from the call's. -/
theorem runs_insertAll {n : ℕ} {obs : List OutboxInsert}
    (h : postgres.Runs db (insertAll stamps n obs) d p d') :
    (∀ q, p.next = some q → ∃ m ob, q = .insertOutbox (stamps m) ob) ∧
      ∀ row ∈ d'.rows, row ∈ d.rows ∨ ∃ m, row.id = (stamps m).rowId := by
  induction obs generalizing n d with
  | nil =>
    obtain ⟨rfl, rfl⟩ := Engine.runs_ret.mp h
    refine ⟨fun _ hq => ?_, fun row hrow => Or.inl hrow⟩
    cases hq
  | cons ob obs ih =>
    obtain ⟨rfl, rfl⟩ | ⟨-, h⟩ := Engine.runs_call.mp h
    · exact ⟨fun q hq => ⟨n, ob, (Option.some.inj hq).symm⟩, fun row hrow => Or.inl hrow⟩
    have hans : postgres.answer db d (.insertOutbox (stamps n) ob) =
        Writes.answer db d (.insertOutbox (stamps n) ob) := rfl
    rw [hans, Writes.answer_insertOutbox] at h
    split_ifs at h
    · obtain ⟨hnext, hrows⟩ := ih h
      refine ⟨hnext, fun row hrow => ?_⟩
      obtain hrow | hid := hrows row hrow
      · obtain hrow | hrow := List.mem_append.mp hrow
        · exact Or.inl hrow
        · rw [List.mem_singleton.mp hrow]
          exact Or.inr ⟨n, rfl⟩
      · exact Or.inr hid
    · obtain ⟨rfl, rfl⟩ := Engine.runs_ret.mp h
      refine ⟨fun _ hq => ?_, fun row hrow => Or.inl hrow⟩
      cases hq

theorem answer_insertProcessed (db : Db) (d : Writes) (idemKey consumer : String) :
    (Writes.answer db d (.insertProcessed idemKey consumer)).2.locks = d.locks ∧
      (Writes.answer db d (.insertProcessed idemKey consumer)).2.rows = d.rows := by
  simp only [Writes.answer]
  repeat' split
  all_goals exact ⟨rfl, rfl⟩

/-- A status that is read is locked. -/
theorem answer_selectStatus (db : Db) (d : Writes) (orderId : String) :
    (Writes.answer db d (.selectStatus orderId)).2.rows = d.rows ∧
      ∀ cur, (Writes.answer db d (.selectStatus orderId)).1 = .ok (some cur) →
        ∃ u, uuidIn orderId = some u ∧
          u ∈ (Writes.answer db d (.selectStatus orderId)).2.locks := by
  simp only [Writes.answer]
  split
  · refine ⟨rfl, fun _ h => ?_⟩
    cases h
  next u hu =>
    split
    · refine ⟨rfl, fun _ h => ?_⟩
      cases h
    · exact ⟨rfl, fun _ _ => ⟨u, hu, List.mem_cons_self⟩⟩

theorem answer_updateStatus (db : Db) (d : Writes) (orderId : String) (next : Status) :
    (Writes.answer db d (.updateStatus orderId next)).2.rows = d.rows := by
  simp only [Writes.answer]
  repeat' split
  all_goals rfl

/-- What a call holds when it does a statement, and what its rows are. -/
inductive Call.Holding (c : Call) : Sql → Writes → Prop
  | insertProcessed : Holding c (.insertProcessed c.idemKey c.consumer) .empty
  | selectStatus {d : Writes} (hlocks : d.locks = []) : Holding c (.selectStatus c.orderId) d
  | updateStatus {d : Writes} {u : Uuid} (next : Status) (hu : uuidIn c.orderId = some u)
      (hlocked : u ∈ d.locks) : Holding c (.updateStatus c.orderId next) d
  | insertOutbox {d : Writes} (n : ℕ) (ob : OutboxInsert) :
      Holding c (.insertOutbox (c.stamps n) ob) d

/-- Where a call is : at a statement with what it holds then, and with rows of its own. -/
def Call.At (c : Call) (p : Prog Sql.Answer (Except Error Bool)) (d : Writes) : Prop :=
  (∀ q, p.next = some q → c.Holding q d) ∧ ∀ row ∈ d.rows, ∃ n, row.id = (c.stamps n).rowId

variable {c : Call}

theorem Call.at_ret {b : Except Error Bool} (hrows : d.rows = [])
    (h : postgres.Runs db (ret b) d p d') : c.At p d' := by
  obtain ⟨rfl, rfl⟩ := Engine.runs_ret.mp h
  rw [Call.At, hrows]
  exact ⟨fun _ hq => (nomatch hq), fun _ hrow => (nomatch hrow)⟩

theorem Call.at_transition {cur : Status} {u : Uuid} (hu : uuidIn c.orderId = some u)
    (hlocked : u ∈ d.locks) (hrows : d.rows = [])
    (h : postgres.Runs db (c.transition cur) d p d') : c.At p d' := by
  unfold Call.transition at h
  split at h
  · exact Call.at_ret hrows h
  next next emit changed hfn =>
    split_ifs at h
    · exact Call.at_ret hrows h
    obtain ⟨rfl, rfl⟩ | ⟨-, hupdate⟩ := Engine.runs_call.mp h
    · refine ⟨fun q hq => ?_, by simp [hrows]⟩
      rw [← Option.some.inj hq]
      exact .updateStatus next hu hlocked
    have hrows' := (answer_updateStatus db d c.orderId next).trans hrows
    cases hans : (postgres.answer db d (.updateStatus c.orderId next)).1 with
    | error e =>
      rw [hans] at hupdate
      exact Call.at_ret hrows' hupdate
    | ok _ =>
      rw [hans] at hupdate
      obtain ⟨hnext, hids⟩ := runs_insertAll hupdate
      refine ⟨fun q hq => ?_, fun row hrow => ?_⟩
      · obtain ⟨m, ob, rfl⟩ := hnext q hq
        exact .insertOutbox m ob
      · obtain hrow | hid := hids row hrow
        · exact nomatch hrows' ▸ hrow
        · exact hid

theorem Call.at_handle (hlocks : d.locks = []) (hrows : d.rows = [])
    (h : postgres.Runs db c.handle d p d') : c.At p d' := by
  obtain ⟨rfl, rfl⟩ | ⟨-, hselect⟩ := Engine.runs_call.mp h
  · refine ⟨fun q hq => ?_, by simp [hrows]⟩
    rw [← Option.some.inj hq]
    exact .selectStatus hlocks
  obtain ⟨hsame, hlocked⟩ := answer_selectStatus db d c.orderId
  have hrows' := hsame.trans hrows
  cases hans : (postgres.answer db d (.selectStatus c.orderId)).1 with
  | error e =>
    rw [hans] at hselect
    exact Call.at_ret hrows' hselect
  | ok cur =>
    rw [hans] at hselect
    cases cur with
    | none => exact Call.at_ret hrows' hselect
    | some cur =>
      obtain ⟨u, hu, hmem⟩ := hlocked cur hans
      exact Call.at_transition hu hmem hrows' hselect

theorem Call.at_body (h : postgres.Runs db c.body .empty p d) : c.At p d := by
  obtain ⟨rfl, rfl⟩ | ⟨-, hinsert⟩ := Engine.runs_call.mp h
  · refine ⟨fun q hq => ?_, fun row hrow => nomatch hrow⟩
    rw [← Option.some.inj hq]
    exact .insertProcessed
  obtain ⟨hlocks, hrows⟩ := answer_insertProcessed db .empty c.idemKey c.consumer
  cases hans : (postgres.answer db .empty (.insertProcessed c.idemKey c.consumer)).1 with
  | error e =>
    rw [hans] at hinsert
    exact Call.at_ret hrows hinsert
  | ok inserted =>
    rw [hans] at hinsert
    cases inserted with
    | false => exact Call.at_ret hrows hinsert
    | true => exact Call.at_handle hlocks hrows hinsert

end

/-! ## A call alone -/

section

variable {db : Db} {c : Call} {d : Writes}

/-- The end of a transaction, after what its program has returned and written. -/
def finish (db : Db) (last : Except Error Bool × Writes) : Except Error Bool × Db :=
  (last.1, if committed last.1 then last.2.apply db else db)

/-- Run a program over tables that nobody else writes. -/
def runAlone (db : Db) (p : Prog Sql.Answer (Except Error Bool)) (d : Writes) :
    Except Error Bool × Writes :=
  Prog.run (fun q d => postgres.answer db d q) p d

theorem runAlone_request (q : Sql) (k : q.Answer → Prog Sql.Answer (Except Error Bool)) :
    runAlone db (request q >>= k) d =
      runAlone db (k (Writes.answer db d q).1) (Writes.answer db d q).2 := rfl

/-- The rest of a call that has its key and its order. -/
theorem finish_transition {u : Uuid} {o : Order} (hu : uuidIn c.orderId = some u)
    (ho : db.orders.find? u = some o) (hstatuses : d.statuses = []) (hrows : d.rows = [])
    (hemit : ∀ cur next emit changed, c.fn cur = .ok (next, emit, changed) → emit.length ≤ 1) :
    finish db (runAlone db (c.transition o.status) d) =
      match c.fn o.status with
      | .error e => (.error e, db)
      | .ok (next, emit, changed) =>
        if !changed then (.ok false, { db with processed := d.keys ++ db.processed })
        else
          match emit.foldlM (Choreography.insertOutbox (c.stamps 0)) db.outbox with
          | .error e => (.error (.sql e), db)
          | .ok outbox =>
            (.ok false, ⟨setStatus db.orders u next, d.keys ++ db.processed, outbox⟩) := by
  rw [Call.transition]
  cases hfn : c.fn o.status with
  | error e => rfl
  | ok result =>
    obtain ⟨next, emit, changed⟩ := result
    cases changed with
    | false =>
      have happly : d.apply db = { db with processed := d.keys ++ db.processed } := by
        simp [Writes.apply, hstatuses, hrows]
      exact congrArg (Prod.mk (Except.ok false)) happly
    | true =>
      have hfind : (d.apply db).orders.find? u = some o := by
        simp [Writes.apply, hstatuses, ho]
      have hupdate : Writes.answer db d (.updateStatus c.orderId next) =
          (.ok (), d.update u next) := by
        simp only [Writes.answer, hu, hfind]
      have happly : (d.update u next).apply db =
          ⟨setStatus db.orders u next, d.keys ++ db.processed, db.outbox⟩ := by
        simp [Writes.apply, Writes.update, hstatuses, hrows]
      simp only [Bool.not_true, Bool.false_eq_true, if_false]
      rw [runAlone_request, hupdate]
      have hlength := hemit _ _ _ _ hfn
      obtain _ | ⟨ob, _ | ⟨ob', emit⟩⟩ := emit
      · exact congrArg (Prod.mk (Except.ok false)) happly
      · have hans := Writes.answer_insertOutbox db (d.update u next) (c.stamps 0) ob
        rw [happly] at hans
        rw [List.foldlM_cons, insertAll, runAlone_request, hans]
        cases hb : Choreography.insertOutbox (c.stamps 0) db.outbox ob with
        | error e =>
          obtain ⟨rfl, htaken⟩ := insertOutbox_eq_error.mp hb
          rw [if_neg htaken]
          rfl
        | ok outbox =>
          have hins : db.outbox.insert (ob.row (c.stamps 0)) = some outbox :=
            Table.insert_eq_some.mpr (insertOutbox_eq_ok.mp hb)
          have happly' : ({ d.update u next with
              rows := (d.update u next).rows ++ [ob.row (c.stamps 0)] } : Writes).apply db =
              ⟨setStatus db.orders u next, d.keys ++ db.processed, outbox⟩ := by
            simp [Writes.apply, Writes.update, hstatuses, hrows, hins]
          rw [if_pos (insertOutbox_eq_ok.mp hb).1]
          exact congrArg (Prod.mk (Except.ok false)) happly'
      · simp at hlength

theorem answer_insertProcessed_empty (db : Db) {idemKey consumer : String}
    (hkey : hasNul idemKey = false) (hconsumer : hasNul consumer = false) :
    Writes.answer db .empty (.insertProcessed idemKey consumer) =
      match markProcessed db.processed idemKey consumer with
      | none => (.ok false, .empty)
      | some _ => (.ok true, { Writes.empty with keys := [(idemKey, consumer)] }) := by
  simp only [Writes.answer, hkey, hconsumer, Bool.or_self, Bool.false_eq_true, if_false]
  rfl

theorem answer_selectStatus_of_unwritten (db : Db) (orderId : String)
    (hstatuses : d.statuses = []) :
    Writes.answer db d (.selectStatus orderId) =
      match uuidIn orderId with
      | none => (.error .invalidText, d)
      | some u =>
        match db.orders.find? u with
        | none => (.ok none, d)
        | some o => (.ok (some o.status), d.lock u) := by
  have hview : (d.apply db).orders = db.orders := by
    simp [Writes.apply, hstatuses]
  simp only [Writes.answer, hview]

/-- A call that runs alone is the transaction of the model of the store, if it emits one
event at most. -/
theorem exec_eq_handleEvent (db : Db) (c : Call) (hconsumer : hasNul c.consumer = false)
    (hemit : ∀ cur next emit changed, c.fn cur = .ok (next, emit, changed) → emit.length ≤ 1) :
    postgres.exec committed c.body db =
      match Store.handleEvent db (c.stamps 0) c.idemKey c.consumer c.orderId c.fn with
      | .error e => (.error e, db)
      | .ok (duplicate, db') => (.ok duplicate, db') := by
  change finish db (runAlone db c.body .empty) = _
  rw [Call.body, runAlone_request, Store.handleEvent]
  by_cases hnul : hasNul c.idemKey = true
  · have hans : Writes.answer db .empty (.insertProcessed c.idemKey c.consumer) =
        (.error .invalidText, .empty) := by
      simp only [Writes.answer, hnul, Bool.true_or, if_true]
    rw [hans, if_pos hnul]
    rfl
  rw [if_neg hnul]
  rw [answer_insertProcessed_empty db (Bool.eq_false_iff.mpr hnul) hconsumer]
  cases hkey : markProcessed db.processed c.idemKey c.consumer with
  | none => rfl
  | some processed =>
    obtain ⟨-, rfl⟩ := markProcessed_eq_some.mp hkey
    change finish db (runAlone db c.handle _) = _
    rw [Call.handle, runAlone_request, answer_selectStatus_of_unwritten db c.orderId rfl]
    cases hu : uuidIn c.orderId with
    | none => rfl
    | some u =>
      cases ho : db.orders.find? u with
      | none =>
        simp only [ho]
        rfl
      | some o =>
        simp only [ho]
        refine (finish_transition hu ho rfl rfl hemit).trans ?_
        cases c.fn o.status with
        | error e => rfl
        | ok result =>
          obtain ⟨next, emit, changed⟩ := result
          cases changed with
          | false => rfl
          | true =>
            simp only [Bool.not_true, Bool.false_eq_true, if_false]
            cases emit.foldlM (Choreography.insertOutbox (c.stamps 0)) db.outbox <;> rfl

/-- The call of `Service.HandleEvent` for an event. -/
def Call.ofEvent (trigger : Trigger) (env : Envelope) (stamps : ℕ → Stamp) : Call where
  idemKey := env.idempotencyKey
  consumer := consumerName
  orderId := env.sagaId
  fn := eventTx trigger (stamps 0) env.sagaId
  stamps := stamps

/-- The state machine emits one event at most. -/
theorem length_emit_le {trigger : Trigger} {stamp : Stamp} {sagaId : String} {cur next : Status}
    {emit : List OutboxInsert} {changed : Bool}
    (h : eventTx trigger stamp sagaId cur = .ok (next, emit, changed)) : emit.length ≤ 1 := by
  cases herr : (OrderService.apply cur trigger).2 with
  | none =>
    rw [eventTx_of_none herr] at h
    obtain ⟨-, hemit⟩ := Prod.mk.inj (Except.ok.inj h)
    rw [← (Prod.mk.inj hemit).1]
    split_ifs <;> simp
  | some e =>
    rw [eventTx_of_some herr] at h
    exact nomatch h

/-- So the transactions of the service, alone, are those of the model of the store. -/
theorem exec_ofEvent (db : Db) (trigger : Trigger) (env : Envelope) (stamps : ℕ → Stamp) :
    postgres.exec committed (Call.ofEvent trigger env stamps).body db =
      match Store.handleEvent db (stamps 0) env.idempotencyKey consumerName env.sagaId
        (eventTx trigger (stamps 0) env.sagaId) with
      | .error e => (.error e, db)
      | .ok (duplicate, db') => (.ok duplicate, db') := by
  have hconsumer : hasNul consumerName = false := by decide
  exact exec_eq_handleEvent db (Call.ofEvent trigger env stamps) hconsumer
    fun _ _ _ _ => length_emit_le

end

/-! ## Any number of calls -/

/-- Calls at the same time. `gen_random_uuid()` draws no id twice. -/
structure Calls (ι : Type) where
  call : ι → Call
  distinct : ∀ {i j m n}, ((call i).stamps m).rowId = ((call j).stamps n).rowId → i = j

namespace Calls

variable {ι : Type} [Fintype ι] [DecidableEq ι]

abbrev World (ι : Type) := Sessions Sql.Answer Db Writes (Except Error Bool) ι

/-- The next statement of one of the calls, or the begin or the end of its transaction. One
that is rolled back can begin again, with the next delivery of its event. -/
def step (calls : Calls ι) : World ι → Move ι → World ι :=
  postgres.step committed fun i => (calls.call i).body

/-- The result of a call that runs alone, and the tables after it. -/
def exec (calls : Calls ι) (db : Db) (i : ι) : Except Error Bool × Db :=
  postgres.exec committed (calls.call i).body db

/-- The tables after the calls, one after the other. -/
def serial (calls : Calls ι) (db : Db) (order : List ι) : Db :=
  inTurn (fun i db => calls.exec db i) db order

/-- How much a call holds : nothing, its key, or its order. -/
def held (d : Writes) : ℕ := if d.locks ≠ [] then 2 else if d.keys ≠ [] then 1 else 0

section

variable {d : Writes}

theorem held_of_locks (h : d.locks ≠ []) : held d = 2 := if_pos h

theorem held_le_one (h : d.locks = []) : held d ≤ 1 := by
  rw [held, if_neg (not_not.mpr h)]
  split_ifs <;> decide

theorem one_le_held (h : d.keys ≠ []) : 1 ≤ held d := by
  rw [held, if_pos h]
  split_ifs <;> decide

end

/-- A call waits only for calls that hold more. -/
theorem held_lt_of_waits (calls : Calls ι) {i j : ι} {q : Sql} {d d' : Writes}
    {p' : Prog Sql.Answer (Except Error Bool)} (hji : j ≠ i) (hat : (calls.call i).Holding q d)
    (hat' : (calls.call j).At p' d') (hapart : Writes.Apart d d') (hwaits : d'.waits q = true) :
    held d < held d' := by
  cases hat with
  | insertProcessed =>
    exact one_le_held (List.ne_nil_of_mem (of_decide_eq_true hwaits))
  | selectStatus hlocks =>
    simp only [Writes.waits] at hwaits
    split at hwaits
    · cases hwaits
    · rw [held_of_locks (List.ne_nil_of_mem (of_decide_eq_true hwaits))]
      exact Nat.lt_succ_of_le (held_le_one hlocks)
  | updateStatus next hu hlocked =>
    simp only [Writes.waits, hu] at hwaits
    exact absurd (of_decide_eq_true hwaits) (hapart.locks hlocked)
  | insertOutbox n ob =>
    have hmem : ((calls.call i).stamps n).rowId ∈ d'.rows.map OutboxRow.id :=
      of_decide_eq_true hwaits
    obtain ⟨row, hrow, hid⟩ := List.mem_map.mp hmem
    obtain ⟨m, hm⟩ := hat'.2 row hrow
    exact absurd (calls.distinct (hm.symm.trans hid)) hji

/-- The calls that are over could have run one after the other, and those that wait do not
wait in a circle. -/
structure Serializable (calls : Calls ι) (db : Db) (w : World ι) : Prop where
  /-- The tables and the results are those of the calls in some order. -/
  serial : ∃ order : List ι, order.Nodup ∧ (∀ i, i ∈ order ↔ ∃ r, w.session i = .ended r) ∧
    w.store = calls.serial db order ∧ ∀ pre i post, order = pre ++ i :: post →
      w.session i = .ended (calls.exec (calls.serial db pre) i).1
  acyclic : ∀ i, ¬Relation.TransGen (postgres.WaitsFor w) i i

end Calls

/-- Whatever the interleaving, and whichever calls are rolled back on the way, the calls of
`Store.HandleEvent` that are over are serializable, and no calls wait in a circle. -/
theorem handleEvent_serializable {ι : Type} [Fintype ι] [DecidableEq ι] (calls : Calls ι) (db : Db)
    (moves : List (Move ι)) :
    calls.Serializable db (runFrom calls.step (Sessions.init db) moves) := by
  have hc := postgres.coherent_run committed (fun i => (calls.call i).body) db moves
  obtain ⟨order, early, h, hfirm⟩ := postgres.serialized_run committed
    (fun i => (calls.call i).body) (fun _ _ _ _ _ _ hfirm => absurd trivial hfirm) db moves
  obtain rfl := hfirm fun _ _ _ => trivial
  constructor
  case serial =>
    exact ⟨order, h.nodup, h.mem_order_iff, h.store.symm, fun _ _ _ => h.ended_of_order⟩
  case acyclic =>
    refine Engine.not_waitsFor_cycle Calls.held fun i j q k d p' d' hji hi hj hwaits => ?_
    have hat := Call.at_body (h.active i List.not_mem_nil _ d hi)
    have hat' := Call.at_body (h.active j List.not_mem_nil p' d' hj)
    exact calls.held_lt_of_waits hji (hat.1 q rfl) hat' (hc.apart (Ne.symm hji) hi hj) hwaits

/-- Two replicas handle one PaymentFailed of the order 10. -/
def failedTwice : Calls Bool where
  call b := .ofEvent .paymentFailed (Envelope.new (.ofKey "k2" 0) "" (uuidOut 10) "" .null)
    fun _ => .ofKey "" (if b then 1 else 2)
  distinct {i j _ _} h := by
    have hid : (if i then 1 else 2 : Uuid) = if j then 1 else 2 := h
    revert hid
    cases i <;> cases j <;> decide

/-- The order 10, just created. -/
def pendingOrder : Db :=
  { Db.empty with orders := ⟨[⟨10, "customer", "SKU-1", .lit 1, .lit 5, .pending⟩], by decide⟩ }

/-- The second call waits for the key of the first, which is rolled back and begins again; in the
end the second has cancelled the order, and the first finds the key. -/
theorem handleEvent_serializable_twice :
    let w := runFrom failedTwice.step (Sessions.init pendingOrder)
      [.go true, .go true, .go false, .go false, .go true, .abort true, .go false, .go false,
        .go false, .go true, .go true, .go false, .go false, .go true, .go true]
    failedTwice.Serializable pendingOrder w ∧
      (w.session true).result = some (.ok true) ∧ (w.session false).result = some (.ok false) :=
  ⟨handleEvent_serializable failedTwice pendingOrder _, by decide +kernel⟩

end Choreography.OrderService
