import Choreography.Payment
import Choreography.RowLocks

/-!
# Concurrent transactions of Payment

`Database.record_payment`, `Database.refund` and `Database.payment_status` as programs over
their SQL statements, for any number of calls at the same time. Two replicas can handle the
same message when a partition moves from one to the other.

A status is read without a lock, and a refund that finds no payment looks at a row that a
charge can still insert; both are the last statements of their transactions. The calls are
serializable and do not deadlock (`payments_serializable`), and of the charges of one saga at
most one creates the payment, whatever the interleaving (`charged_once_interleaved`).
-/

set_option linter.unusedSectionVars false

namespace Choreography.PaymentService

open Prog RowLocks

/-! ## The programs -/

/-- The statements of `Database`. -/
inductive Sql
  /-- `INSERT INTO payments … ON CONFLICT (saga_id) DO NOTHING RETURNING id`; whether a row was
  inserted. -/
  | insertPayment (sagaId : String) (amount : PyFloat) (status : Status)
  /-- `SELECT status FROM payments WHERE saga_id = …`. -/
  | selectStatus (sagaId : String)
  /-- `INSERT INTO processed_messages … ON CONFLICT DO NOTHING`; whether a row was inserted. -/
  | markProcessed (key : String)
  /-- `UPDATE payments SET status = 'REFUNDED' WHERE saga_id = … AND status = 'PROCESSED'
  RETURNING id`; whether a row was updated. -/
  | updateRefunded (sagaId : Json)
  | insertOutbox (stamp : Stamp) (ob : Option OutboxInsert)

abbrev Sql.Answer : Sql → Type
  | .insertPayment .. => Except SqlError Bool
  | .selectStatus _ => Except SqlError (Option Status)
  | .markProcessed _ => Except SqlError Bool
  | .updateRefunded _ => Except SqlError Bool
  | .insertOutbox .. => Except SqlError Unit

/-- What a call returns. -/
inductive Outcome
  | recorded (created : Bool)
  | status (status : Option Status)
  | refunded (processed : Bool)
  deriving DecidableEq

abbrev TxProg := Prog Sql.Answer (Except SqlError Outcome)

/-- A call of the repository, with what the row that it inserts draws. -/
inductive Tx
  | recordPayment (stamp : Stamp) (sagaId : String) (amount : PyFloat) (status : Status)
      (ob : Option OutboxInsert)
  | paymentStatus (sagaId : String)
  | refund (stamp : Stamp) (sagaId : Json) (idempotencyKey : String) (ob : Option OutboxInsert)

/-- `_insert_outbox`, with which a transaction ends. -/
def enqueue (stamp : Stamp) (ob : Option OutboxInsert) (outcome : Outcome) : TxProg := do
  match ← request (Sql.insertOutbox stamp ob) with
  | .error e => return .error e
  | .ok _ => return .ok outcome

/-- The rest of `refund`, with the key inserted. -/
def refundPayment (stamp : Stamp) (sagaId : Json) (ob : Option OutboxInsert) : TxProg := do
  match ← request (Sql.updateRefunded sagaId) with
  | .error e => return .error e
  | .ok false => return .ok (.refunded true)
  | .ok true => enqueue stamp ob (.refunded true)

def Tx.body : Tx → TxProg
  | .recordPayment stamp sagaId amount status ob => do
    match ← request (Sql.insertPayment sagaId amount status) with
    | .error e => return .error e
    | .ok false => return .ok (.recorded false)
    | .ok true => enqueue stamp ob (.recorded true)
  | .paymentStatus sagaId => do
    match ← request (Sql.selectStatus sagaId) with
    | .error e => return .error e
    | .ok status => return .ok (.status status)
  | .refund stamp sagaId idempotencyKey ob => do
    match ← request (Sql.markProcessed idempotencyKey) with
    | .error e => return .error e
    | .ok false => return .ok (.refunded false)
    | .ok true => refundPayment stamp sagaId ob

/-- `engine.begin()` commits unless an exception leaves the block. -/
def Tx.commits : Except SqlError Outcome → Bool
  | .ok _ => true
  | .error _ => false

/-! ## The rows -/

/-- The rows of the tables, those that are not there included. -/
inductive Row
  | payment (sagaId : Uuid)
  | processed (key : String)
  | outbox (id : Uuid)
  deriving DecidableEq

abbrev Row.Value : Row → Type
  | .payment _ => Option Payment
  | .processed _ => Bool
  | .outbox _ => Option OutboxRow

/-- The rows of the tables. -/
def Db.rows (db : Db) : Store Row.Value
  | .payment u => db.payments.find? u
  | .processed key => decide ((key, refundConsumer) ∈ db.processed)
  | .outbox id => db.outbox.find? id

/-- What a statement does. -/
def Sql.touch : (q : Sql) → Touch Row.Value q.Answer
  | .insertPayment sagaId amount status =>
    match uuidIn sagaId with
    | none => .none (.error .invalidText)
    | some u => .insert (.payment u) Option.isSome (some ⟨u, amount, status⟩) (.ok true) (.ok false)
  | .selectStatus sagaId =>
    match uuidIn sagaId with
    | none => .none (.error .invalidText)
    | some u => .row (.payment u) fun p => .look (.ok (p.map Payment.status))
  | .markProcessed key =>
    if hasNul key then .none (.error .invalidText)
    else .insert (.processed key) id true (.ok true) (.ok false)
  -- `saga_id = NULL` is true of no row
  | .updateRefunded .null => .none (.ok false)
  | .updateRefunded (.str sagaId) =>
    match uuidIn sagaId with
    | none => .none (.error .invalidText)
    | some u => .row (.payment u) fun
      | none => .look (.ok false)
      | some p =>
        if p.status = .processed then .write (.ok true) (some { p with status := .refunded })
        else .look (.ok false)
  | .updateRefunded _ => .none (.error .invalidText)
  | .insertOutbox _ none => .none (.error .invalidText)
  | .insertOutbox stamp (some ob) =>
    .insert (.outbox stamp.rowId) Option.isSome (some (ob.row stamp)) (.ok ())
      (.error .uniqueViolation)

/-- How a row can change : nothing is removed, and a payment that is not PROCESSED stays so. -/
def Row.Later : (k : Row) → k.Value → k.Value → Prop
  | .payment _, v, v' => ∀ p, v = some p →
      ∃ p', v' = some p' ∧ (p.status ≠ .processed → p'.status ≠ .processed)
  | .processed _, v, v' => v = true → v' = true
  | .outbox _, v, v' => v.isSome = true → v'.isSome = true

theorem Row.later_refl : (k : Row) → (v : k.Value) → k.Later v v
  | .payment _, _ => fun p hp => ⟨p, hp, id⟩
  | .processed _, _ => id
  | .outbox _, _ => id

theorem Row.later_trans {k : Row} {v v' v'' : k.Value} (h : k.Later v v') (h' : k.Later v' v'') :
    k.Later v v'' := by
  cases k with
  | payment u =>
    intro p hp
    obtain ⟨p', hp', hst⟩ := h p hp
    obtain ⟨p'', hp'', hst'⟩ := h' p' hp'
    exact ⟨p'', hp'', fun hne => hst' (hst hne)⟩
  | processed key => exact fun hv => h' (h hv)
  | outbox id => exact fun hv => h' (h hv)

/-- The UPDATE of a refund is about the payment of its saga, if that is text. -/
theorem Sql.payment_of_updateRefunded {sagaId : Json} {k : Row}
    {effect : k.Value → Effect (Except SqlError Bool) k.Value}
    (h : (Sql.updateRefunded sagaId).touch = .row k effect) :
    ∃ s u, sagaId = .str s ∧ uuidIn s = some u ∧ k = .payment u := by
  cases sagaId with
  | str s =>
    simp only [touch] at h
    split at h
    · cases h
    next u hu =>
      cases h
      exact ⟨s, u, rfl, hu, rfl⟩
  | _ => cases h

theorem Sql.later_write {q : Sql} {k : Row} {effect : k.Value → Effect q.Answer k.Value}
    {v v' : k.Value} {a : q.Answer} (h : q.touch = .row k effect)
    (he : effect v = .write a v') : k.Later v v' := by
  cases q with
  | insertPayment sagaId amount status =>
    simp only [touch] at h
    split at h
    · cases h
    · cases h
      cases v with
      | none => intro p hp; cases hp
      | some p => cases he
  | selectStatus sagaId =>
    simp only [touch] at h
    split at h
    · cases h
    · cases h
      cases he
  | markProcessed key =>
    simp only [touch] at h
    split_ifs at h
    cases h
    exact fun hv => by subst hv; cases he
  | updateRefunded sagaId =>
    obtain ⟨s, u, rfl, hu, rfl⟩ := payment_of_updateRefunded h
    simp only [touch, hu] at h
    cases h
    cases v with
    | none => cases he
    | some p =>
      dsimp only at he
      split_ifs at he
      cases he
      exact fun _ _ => ⟨_, rfl, fun _ hst => by cases hst⟩
  | insertOutbox stamp ob =>
    cases ob with
    | none => cases h
    | some ob =>
      cases h
      cases v with
      | none => intro hv; cases hv
      | some row => cases he

/-- Postgres with READ COMMITTED, for these statements. -/
def postgres : Rows Sql.Answer Row.Value where
  touch := Sql.touch
  Later := Row.Later
  later_refl := Row.later_refl
  later_trans := Row.later_trans
  later_write := Sql.later_write

/-! ## A call alone -/

/-- The result of a call, and the tables after it; one that fails is rolled back. -/
def Tx.exec (db : Db) : Tx → Except SqlError Outcome × Db
  | .recordPayment stamp sagaId amount status ob =>
    match PaymentService.recordPayment db stamp sagaId amount status ob with
    | .error e => (.error e, db)
    | .ok (created, db') => (.ok (.recorded created), db')
  | .paymentStatus sagaId =>
    match uuidIn sagaId with
    | none => (.error .invalidText, db)
    | some u => (.ok (.status ((db.payments.find? u).map Payment.status)), db)
  | .refund stamp sagaId idempotencyKey ob =>
    match PaymentService.refund db stamp sagaId idempotencyKey ob with
    | .error e => (.error e, db)
    | .ok (processed, db') => (.ok (.refunded processed), db')

section

variable (db : Db)

theorem Db.rows_payment {u : Uuid} (p : Payment) {payments : Table Payment Payment.sagaId}
    (h : ∀ u', payments.find? u' = if u' = u then some p else db.payments.find? u') :
    Function.update db.rows (.payment u) (some p) = { db with payments := payments }.rows := by
  refine Function.update_eq_iff.mpr ⟨by simp [rows, h], fun k hk => ?_⟩
  cases k with
  | payment u' =>
    have hne : u' ≠ u := fun h => hk (by rw [h])
    simp [rows, h, hne]
  | _ => rfl

theorem Db.rows_processed (key : String) :
    Function.update db.rows (.processed key) true =
      { db with processed := (key, refundConsumer) :: db.processed }.rows := by
  refine Function.update_eq_iff.mpr ⟨by simp [rows], fun k hk => ?_⟩
  cases k with
  | processed key' =>
    have hne : key' ≠ key := fun h => hk (by rw [h])
    simp [rows, hne]
  | _ => rfl

theorem Db.rows_outbox {stamp : Stamp} {ob : OutboxInsert} {outbox : Outbox}
    (h : Choreography.insertOutbox stamp db.outbox ob = .ok outbox) :
    Function.update db.rows (.outbox stamp.rowId) (some (ob.row stamp)) =
      { db with outbox := outbox }.rows := by
  refine Function.update_eq_iff.mpr ⟨by simp [rows, find?_of_insertOutbox h], fun k hk => ?_⟩
  cases k with
  | outbox id =>
    have hne : id ≠ stamp.rowId := fun h => hk (by rw [h])
    simp [rows, find?_of_insertOutbox h, hne]
  | _ => rfl

theorem touch_insertPayment {sagaId : String} {u : Uuid} (hu : uuidIn sagaId = some u)
    (amount : PyFloat) (status : Status) :
    postgres.touch (.insertPayment sagaId amount status) = .insert (.payment u) Option.isSome
      (some ⟨u, amount, status⟩) (.ok true) (.ok false) := by
  simp only [postgres, Sql.touch, hu]

theorem apply_insertPayment (sagaId : String) (amount : PyFloat) (status : Status) :
    postgres.apply (.insertPayment sagaId amount status) db.rows =
      match uuidIn sagaId with
      | none => (.error .invalidText, db.rows)
      | some u =>
        match db.payments.insert ⟨u, amount, status⟩ with
        | none => (.ok false, db.rows)
        | some payments => (.ok true, { db with payments := payments }.rows) := by
  cases hu : uuidIn sagaId with
  | none => simp only [Rows.apply, postgres, Sql.touch, hu]
  | some u =>
    rw [Rows.apply_insert (touch_insertPayment hu amount status)]
    dsimp only
    cases hins : db.payments.insert ⟨u, amount, status⟩ with
    | none =>
      refine if_pos (Option.isSome_iff_ne_none.mpr fun hfree => ?_)
      obtain ⟨payments, hins'⟩ :=
        Table.exists_insert (r := (⟨u, amount, status⟩ : Payment)) hfree
      cases hins.symm.trans hins'
    | some payments =>
      have hfree : db.rows (.payment u) = none := (Table.insert_eq_some.mp hins).1
      rw [hfree]
      exact congrArg (Prod.mk (Except.ok true))
        (db.rows_payment _ fun u' => Table.find?_of_insert hins u')

theorem apply_selectStatus (sagaId : String) :
    postgres.apply (.selectStatus sagaId) db.rows =
      match uuidIn sagaId with
      | none => (.error .invalidText, db.rows)
      | some u => (.ok ((db.payments.find? u).map Payment.status), db.rows) := by
  simp only [Rows.apply, postgres, Sql.touch]
  cases uuidIn sagaId <;> rfl

theorem touch_markProcessed {key : String} (h : ¬hasNul key = true) :
    postgres.touch (.markProcessed key) =
      .insert (.processed key) id true (.ok true) (.ok false) :=
  if_neg h

theorem apply_markProcessed (key : String) :
    postgres.apply (.markProcessed key) db.rows =
      if hasNul key then (.error .invalidText, db.rows)
      else
        match Choreography.markProcessed db.processed key refundConsumer with
        | none => (.ok false, db.rows)
        | some processed => (.ok true, { db with processed := processed }.rows) := by
  split_ifs with hnul
  · simp only [Rows.apply, postgres, Sql.touch, hnul, if_true]
  · rw [Rows.apply_insert (touch_markProcessed hnul)]
    by_cases hm : (key, refundConsumer) ∈ db.processed
    · rw [markProcessed_eq_none.mpr hm, if_pos (by simp [Db.rows, hm])]
    · rw [markProcessed_eq_some.mpr ⟨hm, rfl⟩, if_neg (by simp [Db.rows, hm])]
      exact congrArg (Prod.mk (Except.ok true)) (db.rows_processed key)

theorem apply_updateRefunded (sagaId : String) :
    postgres.apply (.updateRefunded (.str sagaId)) db.rows =
      match uuidIn sagaId with
      | none => (.error .invalidText, db.rows)
      | some u =>
        if (db.payments.find? u).map Payment.status = some .processed then
          (.ok true, { db with payments := setRefunded db.payments u }.rows)
        else (.ok false, db.rows) := by
  simp only [Rows.apply, postgres, Sql.touch]
  cases uuidIn sagaId with
  | none => rfl
  | some u =>
    have hrow : db.rows (.payment u) = db.payments.find? u := rfl
    dsimp only
    rw [hrow]
    cases hfind : db.payments.find? u with
    | none => rfl
    | some p =>
      simp only [Option.map_some, Option.some.injEq]
      split_ifs
      · refine congrArg (Prod.mk (Except.ok true)) (db.rows_payment _ fun u' => ?_)
        rw [find?_setRefunded, hfind]
        rfl
      · rfl

theorem apply_insertOutbox (stamp : Stamp) (ob : Option OutboxInsert) :
    postgres.apply (.insertOutbox stamp ob) db.rows =
      match insertEvent stamp db.outbox ob with
      | .error e => (.error e, db.rows)
      | .ok outbox => (.ok (), { db with outbox := outbox }.rows) := by
  cases ob with
  | none => rfl
  | some ob =>
    rw [Rows.apply_insert rfl, insertEvent]
    cases hb : Choreography.insertOutbox stamp db.outbox ob with
    | error e =>
      obtain ⟨rfl, htaken⟩ := insertOutbox_eq_error.mp hb
      exact if_pos (Option.isSome_iff_ne_none.mpr htaken)
    | ok outbox =>
      have hfree : db.rows (.outbox stamp.rowId) = none := (insertOutbox_eq_ok.mp hb).1
      rw [hfree]
      exact congrArg (Prod.mk (Except.ok ())) (db.rows_outbox hb)

theorem alone_recordPayment (stamp : Stamp) (sagaId : String) (amount : PyFloat) (status : Status)
    (ob : Option OutboxInsert) :
    postgres.alone Tx.commits db.rows db.rows
        (Tx.recordPayment stamp sagaId amount status ob).body =
      ((Tx.exec db (.recordPayment stamp sagaId amount status ob)).1,
        (Tx.exec db (.recordPayment stamp sagaId amount status ob)).2.rows) := by
  rw [Tx.body, Tx.exec, recordPayment, Rows.alone_request, apply_insertPayment]
  cases uuidIn sagaId with
  | none => rfl
  | some u =>
    dsimp only
    cases db.payments.insert ⟨u, amount, status⟩ with
    | none => rfl
    | some payments =>
      dsimp only
      rw [enqueue, Rows.alone_request, apply_insertOutbox]
      dsimp only
      cases insertEvent stamp db.outbox ob <;> rfl

theorem alone_refund (stamp : Stamp) (sagaId : Json) (idempotencyKey : String)
    (ob : Option OutboxInsert) :
    postgres.alone Tx.commits db.rows db.rows (Tx.refund stamp sagaId idempotencyKey ob).body =
      ((Tx.exec db (.refund stamp sagaId idempotencyKey ob)).1,
        (Tx.exec db (.refund stamp sagaId idempotencyKey ob)).2.rows) := by
  rw [Tx.body, Tx.exec, refund, Rows.alone_request, apply_markProcessed]
  split_ifs
  · rfl
  cases Choreography.markProcessed db.processed idempotencyKey refundConsumer with
  | none => rfl
  | some processed =>
    dsimp only
    rw [refundPayment, Rows.alone_request]
    cases sagaId with
    | str s =>
      rw [apply_updateRefunded]
      dsimp only
      cases uuidIn s with
      | none => rfl
      | some u =>
        dsimp only
        split_ifs
        · dsimp only
          rw [enqueue, Rows.alone_request, apply_insertOutbox]
          dsimp only
          cases insertEvent stamp db.outbox ob <;> rfl
        · rfl
    | _ => rfl

theorem alone_paymentStatus (sagaId : String) :
    postgres.alone Tx.commits db.rows db.rows (Tx.paymentStatus sagaId).body =
      ((Tx.exec db (.paymentStatus sagaId)).1, (Tx.exec db (.paymentStatus sagaId)).2.rows) := by
  rw [Tx.body, Tx.exec, Rows.alone_request, apply_selectStatus]
  cases uuidIn sagaId <;> rfl

end

/-- A call that runs alone is the transaction of the repository. -/
theorem exec_body (db : Db) (t : Tx) :
    postgres.engine.exec Tx.commits t.body db.rows = ((t.exec db).1, (t.exec db).2.rows) := by
  rw [Rows.exec_eq]
  cases t with
  | recordPayment stamp sagaId amount status ob =>
    exact alone_recordPayment db stamp sagaId amount status ob
  | paymentStatus sagaId => exact alone_paymentStatus db sagaId
  | refund stamp sagaId idempotencyKey ob => exact alone_refund db stamp sagaId idempotencyKey ob

/-- The tables after the calls, one after the other. -/
def serial {ι : Type} (txs : ι → Tx) (db : Db) (order : List ι) : Db :=
  inTurn (fun i db => (txs i).exec db) db order

theorem serial_rows {ι : Type} (txs : ι → Tx) (db : Db) (order : List ι) :
    postgres.engine.serial Tx.commits (fun i => (txs i).body) db.rows order =
      (serial txs db order).rows :=
  inTurn_view Db.rows (fun i db => exec_body db (txs i)) db order

/-! ## Looks -/

section

variable {s : Store Row.Value} {d d' : Writes Row.Value}

/-- A key that is there stays there. -/
theorem guarded_processed (key : String) : postgres.Guarded (.processed key) := by
  intro q effect htouch v hlocks v' hlater
  cases q with
  | markProcessed key' =>
    simp only [postgres, Sql.touch] at htouch
    split_ifs at htouch
    cases htouch
    cases v with
    | true => rw [show v' = true from hlater rfl]
    | false => cases hlocks
  | insertOutbox stamp ob => cases ob <;> cases htouch
  | updateRefunded sagaId =>
    obtain ⟨s, u, -, -, hk⟩ := Sql.payment_of_updateRefunded htouch
    cases hk
  | _ =>
    simp only [postgres, Sql.touch] at htouch
    split at htouch <;> cases htouch

theorem firm_markProcessed (key : String) : postgres.Firm s d (.markProcessed key) := by
  by_cases hnul : hasNul key = true
  · intro k effect htouch
    simp only [postgres, Sql.touch, hnul, if_true] at htouch
    cases htouch
  · exact Rows.firm_insert (touch_markProcessed hnul) fun _ _ hlater htaken => hlater htaken

theorem firm_insertPayment (sagaId : String) (amount : PyFloat) (status : Status) :
    postgres.Firm s d (.insertPayment sagaId amount status) := by
  cases hu : uuidIn sagaId with
  | none =>
    intro k effect htouch
    simp only [postgres, Sql.touch, hu] at htouch
    cases htouch
  | some u =>
    refine Rows.firm_insert (touch_insertPayment hu amount status) fun v v' hlater htaken => ?_
    obtain ⟨p, rfl⟩ := Option.isSome_iff_exists.mp htaken
    obtain ⟨p', rfl, -⟩ := hlater p rfl
    rfl

theorem firm_insertOutbox (stamp : Stamp) (ob : Option OutboxInsert) :
    postgres.Firm s d (.insertOutbox stamp ob) := by
  cases ob with
  | none =>
    intro k effect htouch
    cases htouch
  | some ob => exact Rows.firm_insert rfl fun _ _ hlater htaken => hlater htaken

/-- A refund that finds a payment which is not PROCESSED will not find it otherwise. -/
theorem answer_updateRefunded_of_not_firm {sagaId : Json}
    (h : ¬postgres.Firm s d (.updateRefunded sagaId)) :
    (postgres.answer s d (.updateRefunded sagaId)).1 = .ok false := by
  by_contra hanswer
  refine h fun k effect htouch hlocks v hlater => ?_
  obtain ⟨sagaId, u, rfl, hu, rfl⟩ := Sql.payment_of_updateRefunded htouch
  simp only [Rows.answer, postgres, Sql.touch, hu] at hanswer htouch
  cases htouch
  cases hv : d.see s (.payment u) with
  | none =>
    rw [hv] at hanswer
    exact absurd rfl hanswer
  | some p =>
    simp only [hv] at hlocks hanswer
    split_ifs at hlocks hanswer
    · cases hlocks
    · exact absurd rfl hanswer

/-- A status that was read can be another one later. -/
theorem not_guarded_payment {sagaId : String} {u : Uuid} (hu : uuidIn sagaId = some u) :
    ¬postgres.Guarded (.payment u) := by
  intro h
  have htouch : postgres.touch (.selectStatus sagaId) =
      .row (.payment u) fun p => .look (.ok (p.map Payment.status)) := by
    simp only [postgres, Sql.touch, hu]
  have hlater : Row.Later (.payment u) none (some ⟨u, .nonFinite, .processed⟩) :=
    fun p hp => by cases hp
  cases h _ _ htouch none rfl _ hlater

/-! ## Where a call is -/

/-- The id of the outbox row that a call inserts. -/
def Tx.rowId : Tx → Option Uuid
  | .recordPayment stamp .. => some stamp.rowId
  | .paymentStatus _ => none
  | .refund stamp .. => some stamp.rowId

/-- The statements of a call that are left, with what it holds. -/
inductive Tx.At (t : Tx) : TxProg → Writes Row.Value → Prop
  | body : t.At t.body Writes.empty
  | refund {stamp : Stamp} {ob : Option OutboxInsert} {d : Writes Row.Value} (sagaId : Json)
      {key : String} (hrow : t.rowId = some stamp.rowId) (hlocks : d.locks = [.processed key]) :
      t.At (refundPayment stamp sagaId ob) d
  | enqueue {stamp : Stamp} {d : Writes Row.Value} (ob : Option OutboxInsert) (outcome : Outcome)
      (hrow : t.rowId = some stamp.rowId) (hlocks : ∀ id, .outbox id ∉ d.locks) :
      t.At (enqueue stamp ob outcome) d
  | done {d : Writes Row.Value} (b : Except SqlError Outcome)
      (hlocks : ∀ id, .outbox id ∈ d.locks → t.rowId = some id) : t.At (ret b) d

/-- A call that ends without an outbox row. -/
theorem Tx.At.plain {t : Tx} (b : Except SqlError Outcome)
    (hlocks : ∀ id, .outbox id ∉ d.locks) : t.At (ret b) d :=
  .done b fun id hmem => absurd hmem (hlocks id)

/-- Only `_insert_outbox` locks rows of the outbox. -/
theorem outbox_of_touch {q : Sql} {id : Uuid}
    {effect : Row.Value (.outbox id) → Effect q.Answer (Row.Value (.outbox id))}
    (h : q.touch = .row (.outbox id) effect) :
    ∃ stamp ob, q = .insertOutbox stamp ob ∧ stamp.rowId = id := by
  cases q with
  | insertOutbox stamp ob =>
    cases ob with
    | none => cases h
    | some ob =>
      simp only [Sql.touch] at h
      exact ⟨stamp, some ob, rfl, Row.outbox.inj (Touch.row.inj h).1⟩
  | markProcessed key =>
    simp only [Sql.touch] at h
    split_ifs at h
    cases h
  | updateRefunded sagaId =>
    obtain ⟨s, u, -, -, hk⟩ := Sql.payment_of_updateRefunded h
    cases hk
  | _ =>
    simp only [Sql.touch] at h
    split at h <;> cases h

/-- No other statement does. -/
theorem outbox_notMem_answer {q : Sql} (hq : ∀ stamp ob, q ≠ .insertOutbox stamp ob)
    (h : ∀ id, .outbox id ∉ d.locks) (id : Uuid) :
    .outbox id ∉ (postgres.answer s d q).2.locks := by
  intro hmem
  obtain hmem | ⟨effect, htouch⟩ := Rows.mem_locks_answer hmem
  · exact h id hmem
  · obtain ⟨stamp, ob, heq, -⟩ := outbox_of_touch htouch
    exact hq stamp ob heq

theorem outbox_notMem_empty (id : Uuid) :
    .outbox id ∉ (Writes.empty : Writes Row.Value).locks :=
  List.not_mem_nil

/-- The INSERT of the key : the call ends with nothing, or goes on with its key. -/
theorem answer_markProcessed (s : Store Row.Value) (key : String) :
    (∃ b, b ≠ .ok true ∧ postgres.answer s Writes.empty (.markProcessed key) =
      (b, Writes.empty)) ∨
    postgres.answer s Writes.empty (.markProcessed key) =
      (.ok true, Writes.empty.write (.processed key) true) := by
  by_cases hnul : hasNul key = true
  · simp only [Rows.answer, postgres, Sql.touch, hnul, if_true]
    exact Or.inl ⟨.error .invalidText, (by simp), rfl⟩
  · rw [Rows.answer_insert (touch_markProcessed hnul)]
    cases (Writes.empty : Writes Row.Value).see s (.processed key) with
    | true => exact Or.inl ⟨.ok false, (by simp), rfl⟩
    | false => exact Or.inr rfl

namespace Tx.At

variable {t : Tx}

theorem answer {q : Sql} {k : q.Answer → TxProg} (h : t.At (call q k) d) (s : Store Row.Value) :
    t.At (k (postgres.answer s d q).1) (postgres.answer s d q).2 := by
  generalize hp : call q k = p at h
  cases h with
  | body =>
    cases t with
    | recordPayment stamp sagaId amount status ob =>
      cases hp
      have hlocks := outbox_notMem_answer (s := s) (q := .insertPayment sagaId amount status)
        (by simp) outbox_notMem_empty
      cases (postgres.answer s Writes.empty (.insertPayment sagaId amount status)).1 with
      | error e => exact .plain _ hlocks
      | ok created =>
        cases created with
        | false => exact .plain _ hlocks
        | true => exact .enqueue ob _ rfl hlocks
    | paymentStatus sagaId =>
      cases hp
      have hlocks := outbox_notMem_answer (s := s) (q := .selectStatus sagaId)
        (by simp) outbox_notMem_empty
      cases (postgres.answer s Writes.empty (.selectStatus sagaId)).1 with
      | error e => exact .plain _ hlocks
      | ok status => exact .plain _ hlocks
    | refund stamp sagaId idempotencyKey ob =>
      cases hp
      obtain ⟨b, hb, hanswer⟩ | hanswer := answer_markProcessed s idempotencyKey <;> rw [hanswer]
      · cases b with
        | error e => exact .plain _ outbox_notMem_empty
        | ok fresh =>
          cases fresh with
          | false => exact .plain _ outbox_notMem_empty
          | true => exact absurd rfl hb
      · exact .refund sagaId rfl rfl
  | @refund stamp ob _ sagaId key hrow hlocks =>
    cases hp
    have hnot : ∀ id, .outbox id ∉ d.locks := fun id => by simp [hlocks]
    have hlocks' := outbox_notMem_answer (s := s) (q := .updateRefunded sagaId) (by simp) hnot
    cases (postgres.answer s d (.updateRefunded sagaId)).1 with
    | error e => exact .plain _ hlocks'
    | ok updated =>
      cases updated with
      | false => exact .plain _ hlocks'
      | true => exact .enqueue ob _ hrow hlocks'
  | @enqueue stamp _ ob outcome hrow hlocks =>
    cases hp
    have hlocks' : ∀ id, .outbox id ∈ (postgres.answer s d (.insertOutbox stamp ob)).2.locks →
        t.rowId = some id := by
      intro id hmem
      obtain hmem | ⟨effect, htouch⟩ := Rows.mem_locks_answer hmem
      · exact absurd hmem (hlocks id)
      · obtain ⟨stamp', ob', heq, hid⟩ := outbox_of_touch htouch
        cases heq
        rw [hrow, hid]
    cases (postgres.answer s d (.insertOutbox stamp ob)).1 with
    | error e => exact .done _ hlocks'
    | ok _ => exact .done _ hlocks'
  | done b hlocks => cases hp

/-- What a call looks at without a lock is firm, or the last thing that it does. -/
theorem settled {q : Sql} {k : q.Answer → TxProg} (h : t.At (call q k) d)
    (hfirm : ¬postgres.Firm s d q) :
    ∃ b, k (postgres.answer s d q).1 = ret b ∧
      (Tx.commits b = true → ∀ k' v, d.written k' = some v → postgres.Guarded k') := by
  generalize hp : call q k = p at h
  cases h with
  | body =>
    cases t with
    | recordPayment stamp sagaId amount status ob =>
      cases hp
      exact absurd (firm_insertPayment _ _ _) hfirm
    | paymentStatus sagaId =>
      cases hp
      have hwritten : ∀ k' v, (Writes.empty : Writes Row.Value).written k' = some v →
          postgres.Guarded k' := fun k' v hv => by cases hv
      cases (postgres.answer s Writes.empty (.selectStatus sagaId)).1 with
      | error e => exact ⟨_, rfl, fun _ => hwritten⟩
      | ok status => exact ⟨_, rfl, fun _ => hwritten⟩
    | refund stamp sagaId idempotencyKey ob =>
      cases hp
      exact absurd (firm_markProcessed _) hfirm
  | @refund stamp ob _ sagaId key hrow hlocks =>
    cases hp
    have hfalse := answer_updateRefunded_of_not_firm hfirm
    refine ⟨.ok (.refunded true), ?_, fun _ k' v hwritten => ?_⟩
    · rw [hfalse]
      rfl
    · have hk : k' ∈ d.locks := d.covered k' v hwritten
      rw [hlocks] at hk
      obtain rfl := List.mem_singleton.mp hk
      exact guarded_processed key
  | enqueue ob outcome hrow hlocks =>
    cases hp
    exact absurd (firm_insertOutbox _ _) hfirm
  | done b hlocks => cases hp

/-- The outbox row that a call has inserted is its own. -/
theorem rowId_eq {p : TxProg} (h : t.At p d) {id : Uuid} (hmem : .outbox id ∈ d.locks) :
    t.rowId = some id := by
  cases h with
  | body => exact absurd hmem List.not_mem_nil
  | refund sagaId hrow hlocks => simp [hlocks] at hmem
  | enqueue ob outcome hrow hlocks => exact absurd hmem (hlocks id)
  | done b hlocks => exact hlocks id hmem

end Tx.At

/-! ## Waiting -/

def Row.isPayment : Row → Bool
  | .payment _ => true
  | _ => false

/-- How much a call holds : nothing, its key, or a payment. -/
def held (d : Writes Row.Value) : ℕ :=
  if d.locks.any Row.isPayment then 2 else if d.locks ≠ [] then 1 else 0

theorem held_of_payment {u : Uuid} (h : .payment u ∈ d.locks) : held d = 2 :=
  if_pos (List.any_eq_true.mpr ⟨_, h, rfl⟩)

theorem one_le_held {k : Row} (h : k ∈ d.locks) : 1 ≤ held d := by
  rw [held, if_pos (List.ne_nil_of_mem h)]
  split_ifs <;> omega

theorem held_le_one {key : String} (h : d.locks = [.processed key]) : held d ≤ 1 := by
  simp [held, h, Row.isPayment]

/-- An INSERT or an UPDATE of a payment waits for a call that has locked it. -/
theorem payment_of_touch {q : Sql} {k : Row} {effect : k.Value → Effect q.Answer k.Value}
    (h : q.touch = .row k effect) (hmark : ∀ key, q ≠ .markProcessed key)
    (hinsert : ∀ stamp ob, q ≠ .insertOutbox stamp ob) : ∃ u, k = .payment u := by
  cases q with
  | markProcessed key => exact absurd rfl (hmark key)
  | insertOutbox stamp ob => exact absurd rfl (hinsert stamp ob)
  | updateRefunded sagaId =>
    obtain ⟨s, u, -, -, hk⟩ := Sql.payment_of_updateRefunded h
    exact ⟨u, hk⟩
  | _ =>
    simp only [Sql.touch] at h
    split at h
    · cases h
    next u _ =>
      cases h
      exact ⟨u, rfl⟩

/-- A call waits only for calls that hold more. -/
theorem Tx.At.held_lt {t t' : Tx} {q : Sql} {k : q.Answer → TxProg} {p' : TxProg}
    (h : t.At (call q k) d) (h' : t'.At p' d') (hwaits : postgres.waits s d d' q = true)
    (hdistinct : ∀ id, t.rowId = some id → t'.rowId ≠ some id) : held d < held d' := by
  generalize hp : call q k = p at h
  obtain ⟨row, effect, htouch, -, hmem⟩ := Rows.waits_eq_true hwaits
  cases h with
  | body => exact one_le_held hmem
  | @refund stamp ob _ sagaId key hrow hheld =>
    cases hp
    obtain ⟨u, rfl⟩ := payment_of_touch htouch (by simp) (by simp)
    rw [held_of_payment hmem]
    exact Nat.lt_succ_of_le (held_le_one hheld)
  | @enqueue stamp _ ob outcome hrow hheld =>
    cases hp
    cases ob with
    | none => cases htouch
    | some ob =>
      cases htouch
      exact absurd (h'.rowId_eq hmem) (hdistinct _ hrow)
  | done b hlocks => cases hp

end

/-! ## Any number of calls -/

section

variable {ι : Type} [Fintype ι] [DecidableEq ι]

/-- Calls of any number of replicas. -/
structure Calls (ι : Type) where
  tx : ι → Tx
  /-- `gen_random_uuid()` draws no id twice. -/
  distinct : ∀ i j id, (tx i).rowId = some id → (tx j).rowId = some id → i = j

theorem upheld (txs : ι → Tx) :
    postgres.engine.Upheld Tx.commits (fun i => (txs i).body) (fun _ => True)
      fun i _ => (txs i).At where
  start _ _ := .body
  answer _ s _ _ _ h := h.answer s
  commit _ _ _ _ _ h _ _ := h
  keep _ _ _ _ _ _ _ _ := trivial

theorem settled (txs : ι → Tx) (i : ι) : postgres.engine.Settled Tx.commits (txs i).body :=
  (upheld txs).settled i fun _ _ _ _ hat hfirm => hat.settled hfirm

abbrev World (ι : Type) :=
  Sessions Sql.Answer (Store Row.Value) (Writes Row.Value) (Except SqlError Outcome) ι

/-- The replicas after some moves, from tables that nobody uses. -/
def world (calls : Calls ι) (db : Db) (moves : List (Move ι)) : World ι :=
  runFrom (postgres.engine.step Tx.commits fun i => (calls.tx i).body) (Sessions.init db.rows)
    moves

/-- The calls that are over, and perhaps some that are about to commit, one after the other :
each returned what it returns there, and every payment is as it is there. -/
structure Serial (calls : Calls ι) (db : Db) (w : World ι) (order : List ι) : Prop where
  nodup : order.Nodup
  ended : ∀ i r, w.session i = .ended r → i ∈ order
  results : ∀ pre i post, order = pre ++ i :: post →
    (w.session i).result = some ((calls.tx i).exec (serial calls.tx db pre)).1
  payments : ∀ sagaId u, uuidIn sagaId = some u →
    w.store (.payment u) = (serial calls.tx db order).payments.find? u
  tables : (∀ i p d, w.session i ≠ .active p d) → w.store = (serial calls.tx db order).rows

theorem exists_serial (calls : Calls ι) (db : Db) (moves : List (Move ι)) :
    ∃ order, Serial calls db (world calls db moves) order := by
  obtain ⟨order, early, h, -⟩ := postgres.engine.serialized_run Tx.commits
    (fun i => (calls.tx i).body) (settled calls.tx) db.rows moves
  refine ⟨order, h.nodup, fun i r hi => (h.placed i).mpr (Or.inl ⟨r, hi⟩),
    fun pre i post horder => ?_, fun sagaId u hu => ?_, fun hclosed => ?_⟩
  · have hresult := h.results pre i post horder
    rw [serial_rows, exec_body] at hresult
    exact hresult
  · -- what is about to be committed without being there is guarded
    have hstore := Rows.serial_eq_of_not_guarded h (not_guarded_payment hu)
    rw [serial_rows] at hstore
    exact hstore.symm
  · rw [← serial_rows]
    exact h.store_of_closed hclosed

theorem not_waitsFor_self (calls : Calls ι) (db : Db) (moves : List (Move ι)) (i : ι) :
    ¬Relation.TransGen (postgres.engine.WaitsFor (world calls db moves)) i i := by
  obtain ⟨-, hat⟩ := (upheld calls.tx).run trivial moves (s := db.rows)
  refine Engine.not_waitsFor_cycle held (fun i j q k d p' d' hji hi hj hwaits => ?_) i
  refine (hat i _ d hi).held_lt (hat j p' d' hj) hwaits fun id hid hid' => ?_
  exact hji (calls.distinct j i id hid' hid)

/-- In every interleaving the calls are serial, and none of them wait in a circle. -/
theorem payments_serializable (calls : Calls ι) (db : Db) (moves : List (Move ι)) :
    (∃ order, Serial calls db (world calls db moves) order) ∧
      ∀ i, ¬Relation.TransGen (postgres.engine.WaitsFor (world calls db moves)) i i :=
  ⟨exists_serial calls db moves, not_waitsFor_self calls db moves⟩

/-- Two replicas charge the saga 10. -/
def chargedTwice : Calls Bool where
  tx b := .recordPayment (.ofKey "" (if b then 1 else 2)) (uuidOut 10) (.finite 5) .processed
    (some (processedEvent (.ofKey "" (if b then 1 else 2)) (uuidOut 10) 5))
  distinct i j id hi hj := by
    have hid : (if i then 1 else 2 : Uuid) = if j then 1 else 2 :=
      (Option.some.inj hi).trans (Option.some.inj hj).symm
    revert hid
    cases i <;> cases j <;> decide

/-- The second charge waits for the row of the first, which is rolled back and begins again when
the second has created the payment. -/
def chargedInTurn : List (Move Bool) :=
  [.go true, .go true, .go false, .go false, .abort true, .go false, .go false, .go false,
    .go true, .go true, .go true]

theorem payments_serializable_twice :
    (∃ order, Serial chargedTwice .empty (world chargedTwice .empty chargedInTurn) order) ∧
      ((world chargedTwice .empty chargedInTurn).session true).result =
        some (.ok (.recorded false)) :=
  ⟨(payments_serializable chargedTwice .empty chargedInTurn).1, by decide +kernel⟩

/-! ## One payment for each saga -/

/-- The saga that a call charges. -/
def Tx.charges : Tx → Option Uuid
  | .recordPayment _ sagaId _ _ _ => uuidIn sagaId
  | _ => none

theorem recordPayment_find?_ne_none {db db' : Db} {stamp : Stamp} {sagaId : String}
    {amount : PyFloat} {status : Status} {ob : Option OutboxInsert} {created : Bool} {u : Uuid}
    (hok : recordPayment db stamp sagaId amount status ob = .ok (created, db'))
    (h : db.payments.find? u ≠ none) : db'.payments.find? u ≠ none := by
  unfold recordPayment at hok
  split at hok
  · cases hok
  split at hok
  · cases hok
    exact h
  next payments hins =>
    split at hok
    · cases hok
    · cases hok
      rw [Table.find?_of_insert hins]
      split_ifs
      · exact Option.some_ne_none _
      · exact h

theorem refund_payments {db db' : Db} {stamp : Stamp} {sagaId : Json} {idempotencyKey : String}
    {ob : Option OutboxInsert} {processed : Bool}
    (hok : refund db stamp sagaId idempotencyKey ob = .ok (processed, db')) :
    db'.payments = db.payments ∨ ∃ u, db'.payments = setRefunded db.payments u := by
  unfold refund at hok
  split_ifs at hok
  split at hok
  · cases hok
    exact Or.inl rfl
  split at hok
  · cases hok
    exact Or.inl rfl
  next s =>
    split at hok
    · cases hok
    next u _ =>
      split_ifs at hok
      · split at hok
        · cases hok
        · cases hok
          exact Or.inr ⟨u, rfl⟩
      · cases hok
        exact Or.inl rfl
  · cases hok

theorem refund_find?_ne_none {db db' : Db} {stamp : Stamp} {sagaId : Json}
    {idempotencyKey : String} {ob : Option OutboxInsert} {processed : Bool} {u : Uuid}
    (hok : refund db stamp sagaId idempotencyKey ob = .ok (processed, db'))
    (h : db.payments.find? u ≠ none) : db'.payments.find? u ≠ none := by
  obtain hsame | ⟨u', hset⟩ := refund_payments hok
  · rwa [hsame]
  · rw [hset, find?_setRefunded]
    split_ifs with hv
    · subst hv
      exact fun hnone => h (Option.map_eq_none_iff.mp hnone)
    · exact h

/-- A payment stays there. -/
theorem exec_find?_ne_none (t : Tx) {db : Db} {u : Uuid} (h : db.payments.find? u ≠ none) :
    (t.exec db).2.payments.find? u ≠ none := by
  cases t with
  | recordPayment stamp sagaId amount status ob =>
    rw [Tx.exec]
    cases hok : recordPayment db stamp sagaId amount status ob with
    | error e => exact h
    | ok r => exact recordPayment_find?_ne_none hok h
  | paymentStatus sagaId =>
    rw [Tx.exec]
    split <;> exact h
  | refund stamp sagaId idempotencyKey ob =>
    rw [Tx.exec]
    cases hok : refund db stamp sagaId idempotencyKey ob with
    | error e => exact h
    | ok r => exact refund_find?_ne_none hok h

theorem serial_find?_ne_none (txs : ι → Tx) {db : Db} {u : Uuid} (order : List ι)
    (h : db.payments.find? u ≠ none) : (serial txs db order).payments.find? u ≠ none := by
  induction order generalizing db with
  | nil => exact h
  | cons i order ih => exact ih (exec_find?_ne_none (txs i) h)

/-- After a charge the saga has a payment, and before one that creates it there is none. -/
theorem exec_charges {t : Tx} {db : Db} {u : Uuid} {created : Bool} (ht : t.charges = some u)
    (h : (t.exec db).1 = .ok (.recorded created)) :
    (t.exec db).2.payments.find? u ≠ none ∧ (created = true → db.payments.find? u = none) := by
  cases t with
  | recordPayment stamp sagaId amount status ob =>
    have hu : uuidIn sagaId = some u := ht
    simp only [Tx.exec, recordPayment, hu] at h ⊢
    cases hins : db.payments.insert ⟨u, amount, status⟩ with
    | none =>
      simp only [hins] at h ⊢
      cases h
      refine ⟨fun hnone => ?_, fun hfalse => absurd hfalse (by simp)⟩
      obtain ⟨payments, hins'⟩ :=
        Table.exists_insert (r := (⟨u, amount, status⟩ : Payment)) hnone
      exact absurd (hins.symm.trans hins') (by simp)
    | some payments =>
      simp only [hins] at h ⊢
      cases hb : insertEvent stamp db.outbox ob with
      | error e =>
        simp only [hb] at h
        cases h
      | ok outbox =>
        simp only [hb] at h ⊢
        refine ⟨?_, fun _ => (Table.insert_eq_some.mp hins).1⟩
        simp [Table.find?_of_insert hins]
  | _ => cases ht

theorem Serial.result_of_ended {calls : Calls ι} {db : Db} {w : World ι} {order : List ι}
    (h : Serial calls db w order) {i : ι} {r : Except SqlError Outcome} {pre post : List ι}
    (horder : order = pre ++ i :: post) (hi : w.session i = .ended r) :
    ((calls.tx i).exec (serial calls.tx db pre)).1 = r := by
  have hresult := h.results pre i post horder
  rw [hi] at hresult
  exact (Option.some.inj hresult).symm

/-- Of two charges one after the other, the second does not create the payment. -/
theorem Serial.not_created_twice {calls : Calls ι} {db : Db} {w : World ι} {order : List ι}
    (h : Serial calls db w order) {i j : ι} {u : Uuid} {created : Bool} {pre mid post : List ι}
    (horder : order = pre ++ i :: (mid ++ j :: post)) (hi : (calls.tx i).charges = some u)
    (hj : (calls.tx j).charges = some u) (hi' : w.session i = .ended (.ok (.recorded created)))
    (hj' : w.session j = .ended (.ok (.recorded true))) : False := by
  have horder' : order = (pre ++ i :: mid) ++ j :: post := by simp [horder]
  have hafter := (exec_charges hi (h.result_of_ended horder hi')).1
  have hbefore := (exec_charges hj (h.result_of_ended horder' hj')).2 rfl
  rw [serial, inTurn, List.foldl_append, List.foldl_cons] at hbefore
  exact serial_find?_ne_none calls.tx mid hafter hbefore

/-- In every interleaving, at most one charge of a saga creates its payment, and once a charge
has returned the payment is committed. -/
theorem charged_once_interleaved (calls : Calls ι) (db : Db) (moves : List (Move ι))
    (u : Uuid) :
    {i | (calls.tx i).charges = some u ∧
      (world calls db moves).session i = .ended (.ok (.recorded true))}.Subsingleton ∧
    ((∃ i created, (calls.tx i).charges = some u ∧
      (world calls db moves).session i = .ended (.ok (.recorded created))) →
      (world calls db moves).store (.payment u) ≠ none) := by
  obtain ⟨order, h⟩ := exists_serial calls db moves
  constructor
  · rintro i ⟨hi, hi'⟩ j ⟨hj, hj'⟩
    by_contra hne
    obtain ⟨pre, post, horder⟩ := List.append_of_mem (h.ended i _ hi')
    have hmem := h.ended j _ hj'
    rw [horder] at hmem
    obtain hmem | hmem := List.mem_append.mp hmem
    · obtain ⟨pre', mid, rfl⟩ := List.append_of_mem hmem
      rw [List.append_assoc, List.cons_append] at horder
      exact h.not_created_twice horder hj hi hj' hi'
    · obtain hij | hmem := List.mem_cons.mp hmem
      · exact hne hij.symm
      · obtain ⟨mid, post', rfl⟩ := List.append_of_mem hmem
        exact h.not_created_twice horder hi hj hi' hj'
  · rintro ⟨i, created, hi, hi'⟩
    obtain ⟨pre, post, horder⟩ := List.append_of_mem (h.ended i _ hi')
    have hafter := (exec_charges hi (h.result_of_ended horder hi')).1
    have hu : ∃ sagaId, uuidIn sagaId = some u := by
      cases ht : calls.tx i with
      | recordPayment stamp sagaId amount status ob =>
        rw [ht] at hi
        exact ⟨sagaId, hi⟩
      | _ =>
        rw [ht] at hi
        cases hi
    obtain ⟨sagaId, hu⟩ := hu
    rw [h.payments sagaId u hu, horder, serial, inTurn, List.foldl_append, List.foldl_cons]
    exact serial_find?_ne_none calls.tx post hafter

end

/-- The second charge has created the payment, and the first has found it. -/
theorem charged_once_interleaved_twice :
    ((world chargedTwice .empty chargedInTurn).session false).result =
        some (.ok (.recorded true)) ∧
      {i | (chargedTwice.tx i).charges = some 10 ∧
        (world chargedTwice .empty chargedInTurn).session i =
          .ended (.ok (.recorded true))}.Subsingleton :=
  ⟨by decide +kernel, (charged_once_interleaved chargedTwice .empty chargedInTurn 10).1⟩

end Choreography.PaymentService
