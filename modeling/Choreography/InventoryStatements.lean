import Choreography.Inventory
import Choreography.RowLocks

/-!
# The statements of Inventory's transactions

`Database::reserve` and `Database::release` as programs over their SQL statements, each of
which is about one row (`Sql.touch`). The texts of a statement are those that the server gets,
so that the programs cut them. `exec_body` connects the programs to the transactions of
the repository : a call that runs alone does what `reserve` and `release` do.

All statements are firm but three : the SELECT of a duplicate reservation, the UPDATE of a
release that finds no reservation, and an UPDATE of the stock that is out of range.
-/

set_option linter.unusedSectionVars false

namespace Choreography.InventoryService

open Prog RowLocks

/-! ## The programs -/

/-- The statements of `Database::reserve` and `Database::release`. -/
inductive Sql
  /-- `INSERT INTO processed_messages … ON CONFLICT DO NOTHING`; whether a row was inserted. -/
  | markProcessed (key consumer : String)
  /-- `SELECT COALESCE((SELECT id::text FROM reservations … AND status = 'RESERVED'), '')`. -/
  | selectReservedId (sagaId : String)
  /-- `SELECT available FROM stock WHERE sku = … FOR UPDATE`. -/
  | selectAvailable (sku : String)
  /-- `UPDATE stock SET available = available - q, reserved = reserved + q`. -/
  | updateStock (sku : String) (q : ℤ)
  /-- `INSERT INTO reservations … ON CONFLICT (saga_id) DO UPDATE … RETURNING id::text`. -/
  | upsertReservation (newId : Uuid) (sagaId sku : String) (quantity : Int4)
  /-- `UPDATE reservations SET status = 'RELEASED' WHERE saga_id = … AND status = 'RESERVED'
  RETURNING sku, quantity`. -/
  | updateReleased (sagaId : String)
  | insertOutbox (stamp : Stamp) (ob : OutboxInsert)

abbrev Sql.Answer : Sql → Type
  | .markProcessed .. => Bool
  | .selectReservedId _ => Except SqlError String
  | .selectAvailable _ => Option Int4
  | .updateStock .. => Except SqlError Unit
  | .upsertReservation .. => Except SqlError String
  | .updateReleased _ => Except SqlError (Option (String × Int4))
  | .insertOutbox .. => Except SqlError Unit

/-- What a transaction returns. -/
inductive Outcome
  | reserve (outcome : ReserveOutcome)
  | release (outcome : ReleaseOutcome)
  deriving DecidableEq

abbrev TxProg := Prog Sql.Answer (Except SqlError Outcome)

/-- `insert_outbox`, with which a transaction ends. -/
def enqueue (stamp : Stamp) (ob : OutboxInsert) (outcome : Outcome) : TxProg := do
  match ← request (Sql.insertOutbox stamp ob) with
  | .error e => return .error e
  | .ok _ => return .ok outcome

/-- The arguments of `Database::reserve`, and what the rows that it inserts draw. -/
structure ReserveTx where
  newId : Uuid
  stamp : Stamp
  sagaId : String
  idempotencyKey : String
  sku : String
  quantity : Int4
  buildEvent : ReserveOutcome → OutboxInsert

namespace ReserveTx

variable (t : ReserveTx)

def announce (outcome : ReserveOutcome) : TxProg :=
  enqueue t.stamp (t.buildEvent outcome).cStrings (.reserve outcome)

def insert : TxProg := do
  match ← request
      (Sql.upsertReservation t.newId (cString t.sagaId) (cString t.sku) t.quantity) with
  | .error e => return .error e
  | .ok id => t.announce ⟨.reserved, id, false⟩

def take : TxProg := do
  match ← request (Sql.updateStock (cString t.sku) t.quantity.val) with
  | .error e => return .error e
  | .ok _ => t.insert

/-- The rest of the transaction, with the key inserted. -/
def decide : TxProg := do
  let stock ← request (Sql.selectAvailable (cString t.sku))
  if isPoisonSku t.sku || stock.elim 0 Int4.val < t.quantity.val then
    t.announce ⟨.insufficientStock, "", false⟩
  else t.take

/-- The rest of the transaction, if the key was there. -/
def duplicate : TxProg := do
  match ← request (Sql.selectReservedId (cString t.sagaId)) with
  | .error e => return .error e
  | .ok id =>
    if id ≠ "" then return .ok (.reserve ⟨.reserved, id, true⟩)
    else return .ok (.reserve ⟨.insufficientStock, "", true⟩)

def body : TxProg := do
  match ← request (Sql.markProcessed (cString t.idempotencyKey) consumerReserve) with
  | false => t.duplicate
  | true => t.decide

end ReserveTx

/-- The arguments of `Database::release`, and what the row that it inserts draws. -/
structure ReleaseTx where
  stamp : Stamp
  sagaId : String
  reservationId : String
  idempotencyKey : String
  consumer : String
  buildEvent : ReleaseOutcome → OutboxInsert

namespace ReleaseTx

variable (t : ReleaseTx)

def announce : TxProg :=
  enqueue t.stamp (t.buildEvent ⟨true, false⟩).cStrings (.release ⟨true, false⟩)

def giveBack (sku : String) (quantity : Int4) : TxProg := do
  match ← request (Sql.updateStock sku (-quantity.val)) with
  | .error e => return .error e
  | .ok _ => t.announce

/-- The rest of the transaction, with the key inserted. -/
def find : TxProg := do
  match ← request (Sql.updateReleased (cString t.sagaId)) with
  | .error e => return .error e
  | .ok none => return .ok (.release ⟨false, false⟩)
  | .ok (some (sku, quantity)) => t.giveBack sku quantity

def body : TxProg := do
  match ← request (Sql.markProcessed (cString t.idempotencyKey) (cString t.consumer)) with
  | false => return .ok (.release ⟨false, true⟩)
  | true => t.find

end ReleaseTx

/-- A call of the repository. -/
inductive Tx
  | reserve (t : ReserveTx)
  | release (t : ReleaseTx)

def Tx.body : Tx → TxProg
  | .reserve t => t.body
  | .release t => t.body

/-- The transaction commits unless an exception leaves it. -/
def Tx.commits : Except SqlError Outcome → Bool
  | .ok _ => true
  | .error _ => false

/-! ## The rows -/

/-- The rows of the tables, those that are not there included. -/
inductive Row
  | processed (key consumer : String)
  | stock (sku : String)
  | reservation (sagaId : Uuid)
  | outbox (id : Uuid)
  deriving DecidableEq

abbrev Row.Value : Row → Type
  | .processed .. => Bool
  | .stock _ => Option StockRow
  | .reservation _ => Option Reservation
  | .outbox _ => Option OutboxRow

/-- The rows of the tables. -/
def Db.rows (db : Db) : Store Row.Value
  | .processed key consumer => decide ((key, consumer) ∈ db.processed)
  | .stock sku => db.stock.find? sku
  | .reservation u => db.reservations.find? u
  | .outbox id => db.outbox.find? id

/-- The id of a RESERVED row as text, empty if there is none. -/
def reservedText : Option Reservation → String
  | some r => if r.status = .reserved then uuidOut r.id else ""
  | none => ""

/-- What a statement does. -/
def Sql.touch : (q : Sql) → Touch Row.Value q.Answer
  | .markProcessed key consumer => .insert (.processed key consumer) id true true false
  | .selectReservedId sagaId =>
    match uuidIn sagaId with
    | none => .none (.error .invalidText)
    | some u => .row (.reservation u) fun r => .look (.ok (reservedText r))
  | .selectAvailable sku => .row (.stock sku) fun
    | none => .look none
    | some row => .lock (some row.available)
  | .updateStock sku q => .row (.stock sku) fun
    | none => .look (.ok ())
    | some row =>
      match Int4.ofInt? (row.available.val - q), Int4.ofInt? (row.reserved.val + q) with
      | some available, some reserved =>
        .write (.ok ()) (some { row with available := available, reserved := reserved })
      | _, _ => .look (.error .outOfRange)
  | .upsertReservation newId sagaId sku quantity =>
    match uuidIn sagaId with
    | none => .none (.error .invalidText)
    | some u => .row (.reservation u) fun
      | none => .write (.ok (uuidOut newId)) (some ⟨newId, u, sku, quantity, .reserved⟩)
      | some r => .write (.ok (uuidOut r.id)) (some r)
  | .updateReleased sagaId =>
    match uuidIn sagaId with
    | none => .none (.error .invalidText)
    | some u => .row (.reservation u) fun
      | none => .look (.ok none)
      | some r =>
        if r.status = .reserved then
          .write (.ok (some (r.sku, r.quantity))) (some { r with status := .released })
        else .look (.ok none)
  | .insertOutbox stamp ob =>
    if ob.payload.holdsNul then .none (.error .invalidText)
    else .insert (.outbox stamp.rowId) Option.isSome (some (ob.row stamp)) (.ok ())
      (.error .uniqueViolation)

/-- How a row can change : keys and events stay, stock rows are neither added nor removed, and
a reservation that is released stays so. -/
def Row.Later : (k : Row) → k.Value → k.Value → Prop
  | .processed .., v, v' => v = true → v' = true
  | .stock _, v, v' => v'.isSome = v.isSome
  | .reservation _, v, v' => ∀ r, v = some r →
      ∃ r', v' = some r' ∧ (r.status ≠ .reserved → r'.status ≠ .reserved)
  | .outbox _, v, v' => v.isSome = true → v'.isSome = true

theorem Row.later_refl : (k : Row) → (v : k.Value) → k.Later v v
  | .processed .., _ => id
  | .stock _, _ => rfl
  | .reservation _, _ => fun r hr => ⟨r, hr, id⟩
  | .outbox _, _ => id

theorem Row.later_trans {k : Row} {v v' v'' : k.Value} (h : k.Later v v') (h' : k.Later v' v'') :
    k.Later v v'' := by
  cases k with
  | processed key consumer => exact fun hv => h' (h hv)
  | stock sku => exact Eq.trans h' h
  | reservation u =>
    intro r hr
    obtain ⟨r', hr', hst⟩ := h r hr
    obtain ⟨r'', hr'', hst'⟩ := h' r' hr'
    exact ⟨r'', hr'', fun hne => hst' (hst hne)⟩
  | outbox id => exact fun hv => h' (h hv)

theorem Sql.later_write {q : Sql} {k : Row} {effect : k.Value → Effect q.Answer k.Value}
    {v v' : k.Value} {a : q.Answer} (h : q.touch = .row k effect)
    (he : effect v = .write a v') : k.Later v v' := by
  cases q with
  | markProcessed key consumer =>
    cases h
    exact fun hv => by subst hv; cases he
  | selectReservedId sagaId =>
    simp only [touch] at h
    split at h
    · cases h
    · cases h
      cases he
  | selectAvailable sku =>
    cases h
    cases v <;> cases he
  | updateStock sku q =>
    cases h
    cases v with
    | none => cases he
    | some row =>
      dsimp only at he
      split at he
      · cases he
        rfl
      · cases he
  | upsertReservation newId sagaId sku quantity =>
    simp only [touch] at h
    split at h
    · cases h
    · cases h
      cases v with
      | none => intro r hr; cases hr
      | some r =>
        cases he
        exact fun r hr => ⟨r, hr, id⟩
  | updateReleased sagaId =>
    simp only [touch] at h
    split at h
    · cases h
    · cases h
      cases v with
      | none => cases he
      | some r =>
        dsimp only at he
        split_ifs at he
        cases he
        exact fun _ _ => ⟨_, rfl, fun _ hst => by cases hst⟩
  | insertOutbox stamp ob =>
    simp only [touch] at h
    split_ifs at h
    cases h
    cases v with
    | none => intro hv; cases hv
    | some row => cases he

/-- Postgres with READ COMMITTED, for these statements. -/
def postgres : Rows Sql.Answer Row.Value where
  touch := Sql.touch
  Later := Row.Later
  later_refl := Row.later_refl
  later_trans := Row.later_trans
  later_write := Sql.later_write

/-! ## A call alone -/

/-- The result of a call, and the tables after it; one that fails is rolled back. -/
def Tx.exec (db : Db) : Tx → Except SqlError Outcome × Db
  | .reserve t =>
    match InventoryService.reserve db t.newId t.stamp t.sagaId t.idempotencyKey t.sku t.quantity
        t.buildEvent with
    | .error e => (.error e, db)
    | .ok (outcome, db') => (.ok (.reserve outcome), db')
  | .release t =>
    match InventoryService.release db t.stamp t.sagaId t.reservationId t.idempotencyKey t.consumer
        t.buildEvent with
    | .error e => (.error e, db)
    | .ok (outcome, db') => (.ok (.release outcome), db')

namespace Db

variable (db : Db)

theorem rows_processed (key consumer : String) :
    Function.update db.rows (.processed key consumer) true =
      { db with processed := (key, consumer) :: db.processed }.rows := by
  refine Function.update_eq_iff.mpr ⟨by simp [rows], fun k hk => ?_⟩
  cases k with
  | processed key' consumer' =>
    have hne : ¬(key' = key ∧ consumer' = consumer) := fun h => hk (by rw [h.1, h.2])
    simp [rows, hne]
  | _ => rfl

theorem rows_stock {sku : String} (f : StockRow → StockRow) (hf : ∀ row, (f row).sku = row.sku)
    {row : StockRow} (hrow : db.stock.find? sku = some row) :
    Function.update db.rows (.stock sku) (some (f row)) =
      { db with stock := db.stock.update sku f hf }.rows := by
  refine Function.update_eq_iff.mpr ⟨by simp [rows, Table.find?_update, hrow], fun k hk => ?_⟩
  cases k with
  | stock sku' =>
    have hne : sku' ≠ sku := fun h => hk (by rw [h])
    simp [rows, Table.find?_update, hne]
  | _ => rfl

theorem rows_reservation {u : Uuid} (r : Reservation)
    {reservations : Table Reservation Reservation.sagaId}
    (h : ∀ u', reservations.find? u' = if u' = u then some r else db.reservations.find? u') :
    Function.update db.rows (.reservation u) (some r) =
      { db with reservations := reservations }.rows := by
  refine Function.update_eq_iff.mpr ⟨by simp [rows, h], fun k hk => ?_⟩
  cases k with
  | reservation u' =>
    have hne : u' ≠ u := fun h => hk (by rw [h])
    simp [rows, h, hne]
  | _ => rfl

theorem rows_outbox {stamp : Stamp} {ob : OutboxInsert} {outbox : Outbox}
    (h : Choreography.insertOutbox stamp db.outbox ob = .ok outbox) :
    Function.update db.rows (.outbox stamp.rowId) (some (ob.row stamp)) =
      { db with outbox := outbox }.rows := by
  refine Function.update_eq_iff.mpr ⟨by simp [rows, find?_of_insertOutbox h], fun k hk => ?_⟩
  cases k with
  | outbox id =>
    have hne : id ≠ stamp.rowId := fun h => hk (by rw [h])
    simp [rows, find?_of_insertOutbox h, hne]
  | _ => rfl

end Db

section

variable (db : Db)

theorem apply_markProcessed (key consumer : String) :
    postgres.apply (.markProcessed key consumer) db.rows =
      match Choreography.markProcessed db.processed key consumer with
      | none => (false, db.rows)
      | some processed => (true, { db with processed := processed }.rows) := by
  rw [Rows.apply_insert rfl]
  by_cases hm : (key, consumer) ∈ db.processed
  · rw [markProcessed_eq_none.mpr hm, if_pos (by simp [Db.rows, hm])]
  · rw [markProcessed_eq_some.mpr ⟨hm, rfl⟩, if_neg (by simp [Db.rows, hm])]
    exact congrArg (Prod.mk true) (db.rows_processed key consumer)

theorem apply_selectReservedId (sagaId : String) :
    postgres.apply (.selectReservedId sagaId) db.rows =
      match uuidIn sagaId with
      | none => (.error .invalidText, db.rows)
      | some u => (.ok (reservedId db u), db.rows) := by
  simp only [Rows.apply, postgres, Sql.touch]
  cases uuidIn sagaId <;> rfl

theorem apply_selectAvailable (sku : String) :
    postgres.apply (.selectAvailable sku) db.rows =
      ((db.stock.find? sku).map StockRow.available, db.rows) := by
  have hrow : db.rows (.stock sku) = db.stock.find? sku := rfl
  simp only [Rows.apply, postgres, Sql.touch, hrow]
  cases db.stock.find? sku <;> rfl

theorem apply_updateStock (sku : String) (q : ℤ) :
    postgres.apply (.updateStock sku q) db.rows =
      match moveStock db.stock sku q with
      | .error e => (.error e, db.rows)
      | .ok stock => (.ok (), { db with stock := stock }.rows) := by
  have hrow : db.rows (.stock sku) = db.stock.find? sku := rfl
  simp only [Rows.apply, postgres, Sql.touch, hrow, moveStock]
  cases hfind : db.stock.find? sku with
  | none => rfl
  | some row =>
    dsimp only
    cases Int4.ofInt? (row.available.val - q) with
    | none => rfl
    | some available =>
      cases Int4.ofInt? (row.reserved.val + q) with
      | none => rfl
      | some reserved =>
        exact congrArg (Prod.mk (Except.ok ())) (db.rows_stock
          (fun row => { row with available := available, reserved := reserved })
          (fun _ => rfl) hfind)

theorem apply_upsertReservation (newId : Uuid) (sagaId sku : String) (quantity : Int4) :
    postgres.apply (.upsertReservation newId sagaId sku quantity) db.rows =
      match uuidIn sagaId with
      | none => (.error .invalidText, db.rows)
      | some u =>
        let upsert := upsertReservation db.reservations ⟨newId, u, sku, quantity, .reserved⟩
        (.ok (uuidOut upsert.1), { db with reservations := upsert.2 }.rows) := by
  simp only [Rows.apply, postgres, Sql.touch, upsertReservation]
  cases uuidIn sagaId with
  | none => rfl
  | some u =>
    have hrow : db.rows (.reservation u) = db.reservations.find? u := rfl
    dsimp only
    rw [hrow]
    cases hfind : db.reservations.find? u with
    | none =>
      obtain ⟨reservations, hins⟩ :=
        Table.exists_insert (r := (⟨newId, u, sku, quantity, .reserved⟩ : Reservation)) hfind
      rw [hins]
      exact congrArg (Prod.mk (Except.ok (uuidOut newId)))
        (db.rows_reservation _ fun u' => Table.find?_of_insert hins u')
    | some r =>
      cases hins : db.reservations.insert ⟨newId, u, sku, quantity, .reserved⟩ with
      | some reservations =>
        exact absurd ((Table.insert_eq_some.mp hins).1.symm.trans hfind) (by simp)
      | none =>
        refine congrArg (Prod.mk (Except.ok (uuidOut r.id))) (db.rows_reservation r fun u' => ?_)
        split_ifs with hu'
        · rw [hu', hfind]
        · rfl

theorem apply_updateReleased (sagaId : String) :
    postgres.apply (.updateReleased sagaId) db.rows =
      match uuidIn sagaId with
      | none => (.error .invalidText, db.rows)
      | some u =>
        match db.reservations.find? u with
        | none => (.ok none, db.rows)
        | some r =>
          if r.status = .reserved then (.ok (some (r.sku, r.quantity)),
            { db with reservations := setReleased db.reservations u }.rows)
          else (.ok none, db.rows) := by
  simp only [Rows.apply, postgres, Sql.touch]
  cases uuidIn sagaId with
  | none => rfl
  | some u =>
    have hrow : db.rows (.reservation u) = db.reservations.find? u := rfl
    dsimp only
    rw [hrow]
    cases hfind : db.reservations.find? u with
    | none => rfl
    | some r =>
      dsimp only
      split_ifs
      · refine congrArg (Prod.mk (Except.ok (some (r.sku, r.quantity))))
          (db.rows_reservation _ fun u' => ?_)
        rw [setReleased, Table.find?_update, hfind]
        rfl
      · rfl

theorem touch_insertOutbox {stamp : Stamp} {ob : OutboxInsert} (h : ¬ob.payload.holdsNul = true) :
    postgres.touch (.insertOutbox stamp ob) = .insert (.outbox stamp.rowId) Option.isSome
      (some (ob.row stamp)) (.ok ()) (.error .uniqueViolation) :=
  if_neg h

theorem apply_insertOutbox (stamp : Stamp) (ob : OutboxInsert) :
    postgres.apply (.insertOutbox stamp ob.cStrings) db.rows =
      match db.insertOutbox stamp ob with
      | .error e => (.error e, db.rows)
      | .ok outbox => (.ok (), { db with outbox := outbox }.rows) := by
  have hpayload : ob.cStrings.payload = ob.payload := rfl
  unfold Db.insertOutbox
  split_ifs with hnul
  · simp only [Rows.apply, postgres, Sql.touch, hpayload, hnul, if_true]
  · rw [Rows.apply_insert (touch_insertOutbox (hpayload ▸ hnul))]
    cases hb : Choreography.insertOutbox stamp db.outbox ob.cStrings with
    | error e =>
      obtain ⟨rfl, htaken⟩ := insertOutbox_eq_error.mp hb
      exact if_pos (Option.isSome_iff_ne_none.mpr htaken)
    | ok outbox =>
      have hfree : db.rows (.outbox stamp.rowId) = none := (insertOutbox_eq_ok.mp hb).1
      rw [hfree]
      exact congrArg (Prod.mk (Except.ok ())) (db.rows_outbox hb)

end

/-- The last statement of a call. -/
theorem alone_enqueue (s₀ : Store Row.Value) (db : Db) (stock : Stock)
    (reservations : Table Reservation Reservation.sagaId) (processed : Processed) (stamp : Stamp)
    (ob : OutboxInsert) (outcome : Outcome) :
    postgres.alone Tx.commits s₀ (Db.rows ⟨stock, reservations, processed, db.outbox⟩)
        (enqueue stamp ob.cStrings outcome) =
      match db.insertOutbox stamp ob with
      | .error e => (.error e, s₀)
      | .ok outbox => (.ok outcome, Db.rows ⟨stock, reservations, processed, outbox⟩) := by
  have hbox : Db.insertOutbox ⟨stock, reservations, processed, db.outbox⟩ stamp ob =
      db.insertOutbox stamp ob := rfl
  rw [enqueue, Rows.alone_request, apply_insertOutbox, hbox]
  cases db.insertOutbox stamp ob <;> rfl

theorem alone_reserve (db : Db) (t : ReserveTx) :
    postgres.alone Tx.commits db.rows db.rows t.body =
      ((Tx.exec db (.reserve t)).1, (Tx.exec db (.reserve t)).2.rows) := by
  rw [ReserveTx.body, Rows.alone_request, apply_markProcessed, Tx.exec, reserve,
    Db.markProcessed, cString_consumerReserve]
  cases Choreography.markProcessed db.processed (cString t.idempotencyKey) consumerReserve with
  | none =>
    dsimp only
    rw [ReserveTx.duplicate, Rows.alone_request, apply_selectReservedId]
    cases uuidIn (cString t.sagaId) with
    | none => rfl
    | some u =>
      dsimp only
      split_ifs <;> rfl
  | some processed =>
    have havailable : ((db.stock.find? (cString t.sku)).map StockRow.available).elim 0 Int4.val =
        available db.stock (cString t.sku) := by
      unfold available
      cases db.stock.find? (cString t.sku) <;> rfl
    dsimp only
    rw [ReserveTx.decide, Rows.alone_request, apply_selectAvailable]
    dsimp only
    rw [havailable]
    split_ifs with hlack
    · rw [ReserveTx.announce, alone_enqueue]
      cases db.insertOutbox t.stamp (t.buildEvent ⟨.insufficientStock, "", false⟩) <;> rfl
    · rw [ReserveTx.take, Rows.alone_request, apply_updateStock]
      dsimp only
      cases moveStock db.stock (cString t.sku) t.quantity.val with
      | error e => rfl
      | ok stock =>
        dsimp only
        rw [ReserveTx.insert, Rows.alone_request, apply_upsertReservation]
        cases uuidIn (cString t.sagaId) with
        | none => rfl
        | some u =>
          dsimp only
          rw [ReserveTx.announce, alone_enqueue]
          cases db.insertOutbox t.stamp (t.buildEvent ⟨.reserved, uuidOut (upsertReservation
            db.reservations ⟨t.newId, u, cString t.sku, t.quantity, .reserved⟩).1, false⟩) <;> rfl

theorem alone_release (db : Db) (t : ReleaseTx) :
    postgres.alone Tx.commits db.rows db.rows t.body =
      ((Tx.exec db (.release t)).1, (Tx.exec db (.release t)).2.rows) := by
  rw [ReleaseTx.body, Rows.alone_request, apply_markProcessed, Tx.exec, release, Db.markProcessed]
  cases Choreography.markProcessed db.processed (cString t.idempotencyKey)
    (cString t.consumer) with
  | none => rfl
  | some processed =>
    dsimp only
    rw [ReleaseTx.find, Rows.alone_request, apply_updateReleased]
    cases uuidIn (cString t.sagaId) with
    | none => rfl
    | some u =>
      dsimp only
      cases db.reservations.find? u with
      | none => rfl
      | some r =>
        dsimp only
        by_cases hst : r.status = .reserved
        · rw [if_pos hst, if_neg (not_not.mpr hst)]
          dsimp only
          rw [ReleaseTx.giveBack, Rows.alone_request, apply_updateStock]
          dsimp only
          cases moveStock db.stock r.sku (-r.quantity.val) with
          | error e => rfl
          | ok stock =>
            dsimp only
            rw [ReleaseTx.announce, alone_enqueue]
            cases db.insertOutbox t.stamp (t.buildEvent ⟨true, false⟩) <;> rfl
        · rw [if_neg hst, if_pos hst]
          rfl

/-- A call that runs alone is the transaction of the repository. -/
theorem exec_body (db : Db) (t : Tx) :
    postgres.engine.exec Tx.commits t.body db.rows = ((t.exec db).1, (t.exec db).2.rows) := by
  rw [Rows.exec_eq]
  cases t with
  | reserve t => exact alone_reserve db t
  | release t => exact alone_release db t

/-- The tables after the calls, one after the other. -/
def serial {ι : Type} (txs : ι → Tx) (db : Db) (order : List ι) : Db :=
  inTurn (fun i db => (txs i).exec db) db order

theorem serial_rows {ι : Type} (txs : ι → Tx) (db : Db) (order : List ι) :
    postgres.engine.serial Tx.commits (fun i => (txs i).body) db.rows order =
      (serial txs db order).rows :=
  inTurn_view Db.rows (fun i db => exec_body db (txs i)) db order

/-! ## Looks -/

section

variable {s : Store Row.Value} {d : Writes Row.Value}

theorem firm_of_touch {q : Sql} {k : Row} {effect : k.Value → Effect q.Answer k.Value}
    (htouch : q.touch = .row k effect)
    (h : (effect (d.see s k)).locks = false →
      ∀ v, k.Later (d.see s k) v → effect v = effect (d.see s k)) : postgres.Firm s d q := by
  intro k' effect' htouch'
  cases htouch.symm.trans htouch'
  exact h

/-- A key that is there stays there. -/
theorem guarded_processed (key consumer : String) :
    postgres.Guarded (.processed key consumer) := by
  intro q effect htouch v hlocks v' hlater
  cases q with
  | markProcessed key' consumer' =>
    cases htouch
    cases v with
    | true =>
      rw [show v' = true from hlater rfl]
    | false => cases hlocks
  | selectAvailable sku => cases htouch
  | updateStock sku q => cases htouch
  | _ =>
    simp only [postgres, Sql.touch] at htouch
    split at htouch <;> cases htouch

theorem firm_markProcessed (key consumer : String) :
    postgres.Firm s d (.markProcessed key consumer) :=
  Rows.firm_insert rfl fun _ _ hlater htaken => hlater htaken

theorem firm_selectAvailable (sku : String) : postgres.Firm s d (.selectAvailable sku) := by
  refine firm_of_touch rfl fun hlocks v hlater => ?_
  cases hv : d.see s (.stock sku) with
  | none =>
    have hnone : v = none := by simpa [Row.Later, hv] using hlater
    rw [hnone]
  | some row =>
    rw [hv] at hlocks
    cases hlocks

theorem firm_upsertReservation (newId : Uuid) (sagaId sku : String) (quantity : Int4) :
    postgres.Firm s d (.upsertReservation newId sagaId sku quantity) := by
  intro k effect htouch hlocks
  simp only [postgres, Sql.touch] at htouch
  split at htouch
  · cases htouch
  next u hu =>
    cases htouch
    cases hv : d.see s (.reservation u) <;> rw [hv] at hlocks <;> cases hlocks

theorem firm_insertOutbox (stamp : Stamp) (ob : OutboxInsert) :
    postgres.Firm s d (.insertOutbox stamp ob) := by
  by_cases hnul : ob.payload.holdsNul = true
  · intro k effect htouch
    simp only [postgres, Sql.touch, hnul, if_true] at htouch
    cases htouch
  · exact Rows.firm_insert (touch_insertOutbox hnul) fun _ _ hlater htaken => hlater htaken

/-- An UPDATE of the stock that locks nothing finds no row, or fails. -/
theorem answer_updateStock_of_not_firm {sku : String} {q : ℤ}
    (h : ¬postgres.Firm s d (.updateStock sku q)) :
    (postgres.answer s d (.updateStock sku q)).1 = .error .outOfRange := by
  by_contra hanswer
  refine h (firm_of_touch rfl fun hlocks v hlater => ?_)
  simp only [Rows.answer, postgres, Sql.touch] at hanswer
  cases hv : d.see s (.stock sku) with
  | none =>
    have hnone : v = none := by simpa [Row.Later, hv] using hlater
    rw [hnone]
  | some row =>
    simp only [hv] at hlocks hanswer
    cases ha : Int4.ofInt? (row.available.val - q) with
    | none =>
      simp only [ha] at hanswer
      exact absurd rfl hanswer
    | some available =>
      cases hr : Int4.ofInt? (row.reserved.val + q) with
      | none =>
        simp only [ha, hr] at hanswer
        exact absurd rfl hanswer
      | some reserved =>
        simp only [ha, hr] at hlocks
        cases hlocks

/-- A release that finds a row which is not RESERVED will not find it otherwise. -/
theorem answer_updateReleased_of_not_firm {sagaId : String}
    (h : ¬postgres.Firm s d (.updateReleased sagaId)) :
    (postgres.answer s d (.updateReleased sagaId)).1 = .ok none := by
  by_contra hanswer
  refine h fun k effect htouch hlocks v hlater => ?_
  simp only [Rows.answer, postgres, Sql.touch] at hanswer htouch
  split at htouch
  · cases htouch
  next u hu =>
    cases htouch
    simp only [hu] at hanswer
    cases hv : d.see s (.reservation u) with
    | none =>
      rw [hv] at hanswer
      exact absurd rfl hanswer
    | some r =>
      simp only [hv] at hlocks hanswer hlater
      split_ifs at hlocks hanswer
      · cases hlocks
      · exact absurd rfl hanswer

end

end Choreography.InventoryService
