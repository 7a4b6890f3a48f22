import Choreography.Order
import Choreography.Stock

/-!
# Releases and replays

A reservation is released over one of two paths, the RPC ReleaseStock and the message
`order.cancelled`, which mark their keys under different consumer names. What they share is
the transaction `release` and the status of the saga's row.

The row is what makes a release happen once : over all runs with positive quantities, the
units of a saga's reservation come back exactly if the row is RELEASED, and then once, with
one InventoryReleased event (`givesBackOnce`).

The row is also what a replayed ReserveStock is answered from. Nothing stores the first
answer, so that the replay repeats it exactly if the saga's row is RESERVED again or still after
a call that was granted, and is not after one that was refused (`repeats_iff`).

The event of a release does not come from the row. It carries the reservation id of the
request or of the message, and the messages of Order have none (`namesReleased_iff`).
-/

namespace Choreography.InventoryService

variable {db db' : Db} {q : Request} {a : ReleaseArgs} {u : Uuid}

/-! ## What comes back -/

/-- The SKUs of which more is available than before, and how much more. -/
def rises (stock stock' : Stock) : List (String × ℤ) :=
  stock.rows.filterMap fun row =>
    if available stock row.sku < available stock' row.sku then
      some (row.sku, available stock' row.sku - available stock row.sku)
    else none

theorem rises_eq_nil {stock stock' : Stock}
    (h : ∀ sku, available stock' sku ≤ available stock sku) : rises stock stock' = [] := by
  refine List.filterMap_eq_nil_iff.mpr fun row _ => ?_
  rw [if_neg (not_lt.mpr (h row.sku))]

/-- A return of `n` units shows as such. -/
theorem rises_of_moved {stock stock' : Stock} {sku : String} {n : ℤ}
    (h : Moved stock sku (-n) stock') (hrow : (stock.find? sku).isSome) (hn : 0 < n) :
    rises stock stock' = [(sku, n)] := by
  obtain ⟨row, hrow'⟩ := Option.isSome_iff_exists.mp hrow
  have havail : ∀ sku', available stock' sku' =
      available stock sku' + if sku' = sku then n else 0 := by
    intro sku'
    rw [h.available]
    by_cases hs : sku' = sku <;> simp [hs, hrow]
  have hfun : ∀ row' : StockRow,
      (if available stock row'.sku < available stock' row'.sku then
        some (row'.sku, available stock' row'.sku - available stock row'.sku) else none) =
      if row'.sku = sku then some (sku, n) else none := by
    intro row'
    rw [havail]
    by_cases hs : row'.sku = sku <;> simp [hs, hn]
  have hfilter : ∀ rows : List StockRow,
      (rows.filterMap fun row' => if row'.sku = sku then some (sku, n) else none) =
        (rows.filter fun row' => row'.sku = sku).map fun _ => (sku, n) := by
    intro rows
    rw [← List.filterMap_eq_map, List.filterMap_filter]
    exact List.filterMap_congr fun row' _ => by simp
  rw [rises, List.filterMap_congr fun row' _ => hfun row', hfilter, Table.filter_of_find? hrow']
  rfl

/-- The requests of the runs : a ReserveStock asks for a positive quantity. -/
def Request.Positive : Request → Prop
  | .reserveStock _ _ req => 0 < req.quantity.val
  | .releaseStock .. | .orderCancelled .. => True

/-- A request that asks for nothing, or for a positive quantity. -/
structure Operation where
  request : Request
  positive : request.Positive

/-- The tables, and what came back for each saga. -/
structure Ledger where
  db : Db
  /-- The SKU and the units of each return. Nothing reads it but the statements. -/
  returned : Uuid → List (String × ℤ)

namespace Ledger

/-- A new deployment. -/
def init (stock : Stock) : Ledger := ⟨.ofStock stock, fun _ => []⟩

def step (l : Ledger) (op : Operation) : Ledger where
  db := op.request.exec l.db
  returned u := l.returned u ++
    if op.request.saga = some u then rises l.db.stock (op.request.exec l.db).stock else []

/-- What must have come back for a saga with the given row. -/
def due : Option Reservation → List (String × ℤ)
  | some r => if r.status = .released then [(r.sku, r.quantity.val)] else []
  | none => []

/-- Every reservation is of a positive quantity of a SKU that has a stock row, and the
returns and the events of each saga are those of its row. -/
structure Settled (l : Ledger) : Prop where
  rows : ∀ r ∈ l.db.reservations.rows, (l.db.stock.find? r.sku).isSome ∧ 0 < r.quantity.val
  returned : ∀ u, l.returned u = due (l.db.reservations.find? u)
  events : ∀ u, (eventTypesOf u l.db.outbox).count "InventoryReleased" =
    (due (l.db.reservations.find? u)).length

theorem settled_init (stock : Stock) : Settled (init stock) where
  rows _ hr := nomatch hr
  returned _ := rfl
  events _ := rfl

end Ledger

theorem count_insertOutbox {stamp : Stamp} {outbox outbox' : Outbox} {ob : OutboxInsert}
    (h : insertOutbox stamp outbox ob = .ok outbox') (u : Uuid) (eventType : String) :
    (eventTypesOf u outbox').count eventType = (eventTypesOf u outbox).count eventType +
      if uuidIn ob.aggregateId = some u ∧ ob.eventType = eventType then 1 else 0 := by
  rw [eventTypesOf, insertsOf, (insertOutbox_eq_ok.mp h).2, List.map_append, List.filter_append,
    List.map_append, List.count_append]
  by_cases hu : uuidIn ob.aggregateId = some u <;> by_cases he : ob.eventType = eventType <;>
    simp [hu, he, eventTypesOf, insertsOf, OutboxInsert.row]

theorem find?_setReleased (reservations : Table Reservation Reservation.sagaId) (u v : Uuid) :
    (setReleased reservations u).find? v =
      if v = u then (reservations.find? u).map fun r => { r with status := .released }
      else reservations.find? v :=
  Table.find?_update reservations u _ _ v

namespace Ledger

variable {l : Ledger} {op : Operation}

/-- A request that neither returns stock nor changes what is due keeps the ledger settled. -/
theorem Settled.keep (h : Settled l)
    (hrows : ∀ r ∈ (op.request.exec l.db).reservations.rows,
      ((op.request.exec l.db).stock.find? r.sku).isSome ∧ 0 < r.quantity.val)
    (hstock : ∀ sku, available (op.request.exec l.db).stock sku ≤ available l.db.stock sku)
    (hdue : ∀ u, due ((op.request.exec l.db).reservations.find? u) =
      due (l.db.reservations.find? u))
    (hevents : ∀ u, (eventTypesOf u (op.request.exec l.db).outbox).count "InventoryReleased" =
      (eventTypesOf u l.db.outbox).count "InventoryReleased") : Settled (l.step op) where
  rows := hrows
  returned u := by
    simp only [Ledger.step, rises_eq_nil hstock, ite_self, List.append_nil, hdue]
    exact h.returned u
  events u := by
    simp only [Ledger.step, hdue, hevents]
    exact h.events u

/-- A request that leaves the three tables keeps the ledger settled. -/
theorem Settled.of_eq (h : Settled l) (hstock : (op.request.exec l.db).stock = l.db.stock)
    (hres : (op.request.exec l.db).reservations = l.db.reservations)
    (hout : (op.request.exec l.db).outbox = l.db.outbox) : Settled (l.step op) := by
  refine h.keep ?_ (fun _ => by rw [hstock]) (fun _ => by rw [hres]) fun _ => by rw [hout]
  rw [hstock, hres]
  exact h.rows

theorem Settled.refuses (h : Settled l) {stamp : Stamp} {idem sku : String} {quantity : Int4}
    {sagaId reason traceparent : String}
    (hr : Refuses l.db stamp idem (failedEvent stamp sagaId sku quantity reason traceparent)
      (op.request.exec l.db)) : Settled (l.step op) := by
  refine h.keep ?_ (fun _ => by rw [hr.stock]) (fun _ => by rw [hr.reservations]) fun u => ?_
  · rw [hr.stock, hr.reservations]
    exact h.rows
  · rw [count_insertOutbox hr.outbox, if_neg, Nat.add_zero]
    exact fun ⟨_, he⟩ => absurd he (by simp [failedEvent, outboxEvent])

theorem Settled.takes (h : Settled l) {newId : Uuid} {stamp : Stamp} {u : Uuid}
    {idem sku sagaId traceparent : String} {quantity : Int4} {outcome : ReserveOutcome}
    (hq : 0 < quantity.val)
    (ht : Takes l.db newId stamp u idem sku quantity
      (reservedEvent stamp sagaId sku quantity outcome traceparent) (op.request.exec l.db)) :
    Settled (l.step op) := by
  have hmoved := moved_of_moveStock ht.stock
  have hrow := Sound.isSome_of_takes ht (Or.inl hq)
  refine h.keep ?_ (fun sku' => ?_) (fun v => ?_) fun v => ?_
  · intro r hr
    rw [hmoved.rows]
    rw [ht.reservations] at hr
    obtain hr | rfl := mem_upsertReservation hr
    · exact h.rows r hr
    · exact ⟨hrow, hq⟩
  · rw [hmoved.available]
    split_ifs <;> omega
  · -- a saga with a row keeps it, and the row of another is RESERVED
    rw [ht.reservations]
    obtain ⟨-, hup⟩ | ⟨hnone, -⟩ :=
      upsertReservation_cases l.db.reservations ⟨newId, u, sku, quantity, .reserved⟩
    · rw [hup]
    · rw [find?_upsertReservation hnone]
      split_ifs with hv
      · rw [hv, hnone]
        rfl
      · rfl
  · rw [count_insertOutbox ht.outbox, if_neg, Nat.add_zero]
    rintro ⟨-, he⟩
    exact absurd he (by simp [reservedEvent, outboxEvent])

theorem Settled.releases (h : Settled l) {a : ReleaseArgs} {u : Uuid} {r : Reservation}
    (hop : op.request.saga = some u) (hu : uuidIn a.sagaId = some u)
    (hr : Releases l.db a.stamp u r (cString a.idem) a.consumer a.event (op.request.exec l.db)) :
    Settled (l.step op) := by
  obtain ⟨hbacked, hpositive⟩ := h.rows r (Table.find?_eq_some.mp hr.row).1
  have hmoved := moved_of_moveStock hr.stock
  have hfind := find?_setReleased l.db.reservations u
  refine ⟨fun r' hr' => ?_, fun v => ?_, fun v => ?_⟩
  · rw [Ledger.step, hmoved.rows]
    rw [Ledger.step, hr.reservations] at hr'
    obtain ⟨r'', hmem, -, rfl⟩ | ⟨hmem, -⟩ := Table.mem_update.mp hr'
    · exact h.rows r'' hmem
    · exact h.rows r' hmem
  · simp only [Ledger.step, hop, Option.some.injEq, hr.reservations, hfind,
      rises_of_moved hmoved hbacked hpositive, h.returned]
    by_cases hv : v = u
    · simp [hv, hr.row, hr.status, due]
    · simp [hv, Ne.symm hv]
  · simp only [Ledger.step, count_insertOutbox hr.outbox, hr.reservations, hfind, h.events]
    by_cases hv : v = u
    · simp [hv, hr.row, hr.status, due, ReleaseArgs.event, releasedEvent, outboxEvent, hu]
    · simp [hv, Ne.symm hv, ReleaseArgs.event, releasedEvent, outboxEvent, hu]

theorem Settled.step (h : Settled l) (op : Operation) : Settled (l.step op) := by
  obtain hdb | ⟨newId, stamp, req, hq, href | ⟨-, -, u, outcome, -, ht⟩⟩ |
    ⟨a, ha, hdb | ⟨-, -, u, r, hu, hr⟩⟩ := op.request.exec_cases l.db
  · exact h.of_eq (by rw [hdb]) (by rw [hdb]) (by rw [hdb])
  · exact h.refuses href
  · have hpositive := op.positive
    rw [hq] at hpositive
    exact h.takes hpositive ht
  · exact h.of_eq (by rw [hdb]) (by rw [hdb]) (by rw [hdb])
  · exact h.releases ((Request.saga_of_release? ha).trans hu) hu hr

theorem settled_run (stock : Stock) (ops : List Operation) :
    Settled (runFrom Ledger.step (init stock) ops) :=
  invariant_runFrom (I := Settled) (fun _ op h => h.step op) ops (settled_init stock)

end Ledger

/-- The reservation of the saga is RELEASED. -/
def Released (db : Db) (u : Uuid) : Prop :=
  (db.reservations.find? u).map Reservation.status = some .released

instance (db : Db) (u : Uuid) : Decidable (Released db u) := inferInstanceAs (Decidable (_ = _))

/-- The request is a release that is not a duplicate, of a saga whose reservation is
RESERVED. -/
def Request.Finds (db : Db) (q : Request) : Prop :=
  ∃ a ∈ q.release?, (cString a.idem, a.consumer) ∉ db.processed ∧
    ∃ u ∈ uuidIn a.sagaId, ∃ r ∈ db.reservations.find? u, r.status = .reserved

theorem length_due (o : Option Reservation) : (Ledger.due o).length =
    if o.map Reservation.status = some .released then 1 else 0 := by
  cases o with
  | none => rfl
  | some r =>
    by_cases hr : r.status = .released <;> simp [Ledger.due, hr]

/-- A request keeps a row, but that it may become RELEASED. -/
theorem row_exec {r : Reservation} (h : db.reservations.find? u = some r) (q : Request) :
    (q.exec db).reservations.find? u = some r ∨
      (q.exec db).reservations.find? u = some { r with status := .released } := by
  obtain hdb | ⟨newId, stamp, req, -, href | ⟨-, -, v, outcome, -, ht⟩⟩ |
    ⟨a, -, hdb | ⟨-, -, v, r', -, hr⟩⟩ := q.exec_cases db
  · exact Or.inl (by rw [hdb, h])
  · exact Or.inl (by rw [href.reservations, h])
  · exact Or.inl (by rw [ht.reservations, find?_upsertReservation_of_some h])
  · exact Or.inl (by rw [hdb, h])
  · rw [hr.reservations, find?_setReleased]
    split_ifs with hv
    · exact Or.inr (by rw [← hv, h, Option.map_some])
    · exact Or.inl h

/-- A row that is RELEASED stays so. -/
theorem released_exec (db : Db) (q : Request) (h : Released db u) : Released (q.exec db) u := by
  obtain ⟨r, hr, hst⟩ := Option.map_eq_some_iff.mp h
  obtain hrow | hrow := row_exec hr q
  · simp [Released, hrow, hst]
  · simp [Released, hrow]

/-- A request that finds nothing to release leaves the tables, but for its key. -/
theorem exec_of_not_finds (h : ∀ newId stamp req, q ≠ .reserveStock newId stamp req)
    (hfinds : ¬q.Finds db) : (q.exec db).stock = db.stock ∧
      (q.exec db).reservations = db.reservations ∧ (q.exec db).outbox = db.outbox := by
  obtain hdb | ⟨newId, stamp, req, hq, -⟩ | ⟨a, ha, hdb | ⟨-, -, u, r, hu, hr⟩⟩ := q.exec_cases db
  · rw [hdb]
    exact ⟨rfl, rfl, rfl⟩
  · exact absurd hq (h newId stamp req)
  · rw [hdb]
    exact ⟨rfl, rfl, rfl⟩
  · exact absurd ⟨a, ha, hr.fresh, u, hu, r, hr.row, hr.status⟩ hfinds

/-- Only a request that names a saga returns stock. -/
theorem rises_of_no_saga {op : Operation} (h : op.request.saga = none) (db : Db) :
    rises db.stock (op.request.exec db).stock = [] := by
  refine rises_eq_nil fun sku => ?_
  obtain hdb | ⟨newId, stamp, req, hq, href | ⟨-, -, u, outcome, hu, -⟩⟩ |
    ⟨a, ha, hdb | ⟨-, -, u, r, hu, -⟩⟩ := op.request.exec_cases db
  · rw [hdb]
  · rw [href.stock]
  · rw [hq, Request.saga, hu] at h
    exact nomatch h
  · rw [hdb]
  · rw [Request.saga_of_release? ha, hu] at h
    exact nomatch h

/-- What a run from a new deployment gives back for the saga `u`. -/
structure GivesBackOnce (stock : Stock) (ops : List Operation) (u : Uuid) : Prop where
  events : (eventTypesOf u (runFrom Ledger.step (.init stock) ops).db.outbox).count
      "InventoryReleased" = if Released (runFrom Ledger.step (.init stock) ops).db u then 1 else 0
  returns : ((runFrom Ledger.step (.init stock) ops).returned u).length =
    if Released (runFrom Ledger.step (.init stock) ops).db u then 1 else 0
  /-- What comes back is what the row says. -/
  amount : ∀ x ∈ (runFrom Ledger.step (.init stock) ops).returned u, ∃ r,
    (runFrom Ledger.step (.init stock) ops).db.reservations.find? u = some r ∧
      x = (r.sku, r.quantity.val)
  /-- RELEASED is final. -/
  final : Released (runFrom Ledger.step (.init stock) ops).db u → ∀ ops',
    Released (runFrom Ledger.step (.init stock) (ops ++ ops')).db u
  /-- A release that finds nothing changes nothing. -/
  idle : ∀ q : Request, (∀ newId stamp req, q ≠ .reserveStock newId stamp req) →
    ¬q.Finds (runFrom Ledger.step (.init stock) ops).db →
    (q.exec (runFrom Ledger.step (.init stock) ops).db).stock =
        (runFrom Ledger.step (.init stock) ops).db.stock ∧
      (q.exec (runFrom Ledger.step (.init stock) ops).db).reservations =
        (runFrom Ledger.step (.init stock) ops).db.reservations ∧
      (q.exec (runFrom Ledger.step (.init stock) ops).db).outbox =
        (runFrom Ledger.step (.init stock) ops).db.outbox
  /-- Every return is for a saga. -/
  named : ∀ op : Operation, op.request.saga = none →
    rises (runFrom Ledger.step (.init stock) ops).db.stock
      (op.request.exec (runFrom Ledger.step (.init stock) ops).db).stock = []

/-- Whatever comes in, and in which order, a saga's reservation is given back once if its row is
RELEASED, and never otherwise. -/
theorem givesBackOnce (stock : Stock) (ops : List Operation) (u : Uuid) :
    GivesBackOnce stock ops u := by
  have h := Ledger.settled_run stock ops
  refine ⟨?_, ?_, fun x hx => ?_, fun hrel ops' => ?_, fun q hq hf => exec_of_not_finds hq hf,
    fun op hop => rises_of_no_saga hop _⟩
  · rw [h.events, length_due]
    rfl
  · rw [h.returned, length_due]
    rfl
  · rw [h.returned] at hx
    cases hr : (runFrom Ledger.step (.init stock) ops).db.reservations.find? u with
    | none => simp [hr, Ledger.due] at hx
    | some r =>
      refine ⟨r, rfl, ?_⟩
      simp only [hr, Ledger.due] at hx
      split_ifs at hx
      · exact List.mem_singleton.mp hx
      · exact absurd hx List.not_mem_nil
  · rw [runFrom_append]
    exact invariant_runFrom (I := fun l : Ledger => Released l.db u)
      (fun l op hl => released_exec l.db op.request hl) ops' hrel

/-- Two of ten units are reserved, and released over both paths. -/
def releasedTwice : List Operation :=
  [⟨reserveRequest 1 sagaA "k1" "SKU-1" (.lit 2), show (0 : ℤ) < 2 by decide⟩,
    ⟨.releaseStock (.ofKey "k2" 2) ⟨sagaA, "", "k2"⟩, trivial⟩,
    ⟨.orderCancelled (.ofKey "k3" 3)
      (OrderService.orderCancelledEvent (.ofKey "k4" 4) sagaA).payload "", trivial⟩]

/-- The units come back once. -/
theorem givesBackOnce_releasedTwice :
    Released (runFrom Ledger.step (.init tenUnits) releasedTwice).db 10 ∧
      ((runFrom Ledger.step (.init tenUnits) releasedTwice).returned 10).length = 1 := by
  have hreleased : Released (runFrom Ledger.step (.init tenUnits) releasedTwice).db 10 := by
    decide +kernel
  refine ⟨hreleased, ?_⟩
  rw [(givesBackOnce tenUnits releasedTwice 10).returns, if_pos hreleased]

/-! ## A request that comes again -/

/-- The SKU is not the poison one, and there is enough of it. -/
def Grantable (db : Db) (req : ReserveStockRequest) : Prop :=
  isPoisonSku req.sku = false ∧ req.quantity.val ≤ available db.stock req.sku

instance (db : Db) (req : ReserveStockRequest) : Decidable (Grantable db req) :=
  inferInstanceAs (Decidable (_ ∧ _))

/-- The reservation of the saga is RESERVED. -/
def Reserved (db : Db) (u : Uuid) : Prop :=
  (db.reservations.find? u).map Reservation.status = some .reserved

instance (db : Db) (u : Uuid) : Decidable (Reserved db u) := inferInstanceAs (Decidable (_ = _))

/-- A request of the saga `u` is granted : from the saga's row if the key is processed, and from
the stock otherwise. -/
def Granted (db : Db) (req : ReserveStockRequest) (u : Uuid) : Prop :=
  if (cString req.idempotencyKey, consumerReserve) ∈ db.processed then Reserved db u
  else Grantable db req

instance (db : Db) (req : ReserveStockRequest) (u : Uuid) : Decidable (Granted db req u) :=
  inferInstanceAs (Decidable (if (cString req.idempotencyKey, consumerReserve) ∈ db.processed
    then Reserved db u else Grantable db req))

/-- The request is answered with the given status and reservation id, and the tables stay
as they are. -/
def Repeats (db : Db) (newId : Uuid) (stamp : Stamp) (req : ReserveStockRequest)
    (result : ReserveResult) : Prop :=
  ∃ message, Server.reserveStock db newId stamp req =
    .ok (⟨result.status, result.reservationId, message⟩, db)

theorem mem_processed_exec {k : String × String} (db : Db) (q : Request) (h : k ∈ db.processed) :
    k ∈ (q.exec db).processed := by
  obtain hdb | ⟨newId, stamp, req, -, href | ⟨-, -, v, outcome, -, ht⟩⟩ |
    ⟨a, -, hdb | ⟨-, -, v, r, -, hr⟩⟩ := q.exec_cases db
  · rw [hdb]
    exact h
  · rw [href.processed]
    exact List.mem_cons_of_mem _ h
  · rw [ht.processed]
    exact List.mem_cons_of_mem _ h
  · rw [hdb]
    exact List.mem_cons_of_mem _ h
  · rw [hr.processed]
    exact List.mem_cons_of_mem _ h

/-- A saga keeps the id of its row. -/
theorem id_exec {i : Uuid} (db : Db) (q : Request)
    (h : (db.reservations.find? u).map Reservation.id = some i) :
    ((q.exec db).reservations.find? u).map Reservation.id = some i := by
  obtain ⟨r, hr, hid⟩ := Option.map_eq_some_iff.mp h
  obtain hrow | hrow := row_exec hr q
  · simp [hrow, hid]
  · simp [hrow, hid]

theorem reservedId_of_reserved (hres : Reserved db u) : ∃ i,
    (db.reservations.find? u).map Reservation.id = some i ∧ reservedId db u = uuidOut i := by
  obtain ⟨r, hr, hst⟩ := Option.map_eq_some_iff.mp hres
  exact ⟨r.id, by simp [hr], by simp [reservedId, hr, hst]⟩

theorem reservedId_eq_empty (hres : ¬Reserved db u) : reservedId db u = "" := by
  unfold reservedId
  cases hr : db.reservations.find? u with
  | none => rfl
  | some r =>
    have hst : r.status ≠ .reserved := fun hst => hres (by simp [Reserved, hr, hst])
    simp [hst]

/-- A request whose key is processed is answered from the saga's row. -/
theorem reserveStock_of_processed (newId : Uuid) (stamp : Stamp) (req : ReserveStockRequest)
    (hmem : (cString req.idempotencyKey, consumerReserve) ∈ db.processed)
    (hu : uuidIn (cString req.sagaId) = some u) :
    ∃ message, Server.reserveStock db newId stamp req =
      .ok (if reservedId db u ≠ "" then ⟨.reserved, reservedId db u, message⟩
        else ⟨.insufficientStock, "", message⟩, db) := by
  have hmark : db.markProcessed req.idempotencyKey consumerReserve = none :=
    Db.markProcessed_eq_none.mpr (by simpa using hmem)
  by_cases hid : reservedId db u = ""
  · exact ⟨failureReason req.sku, by
      simp [Server.reserveStock, reserveStock, reserve, hmark, hu, hid]⟩
  · exact ⟨"already reserved", by
      simp [Server.reserveStock, reserveStock, reserve, hmark, hu, hid]⟩

/-- What a request is answered : a refusal without an id, or the id of the saga's row. -/
theorem reserveStock_answer {newId : Uuid} {stamp : Stamp} {req : ReserveStockRequest}
    {result : ReserveResult} (h : Server.reserveStock db newId stamp req = .ok (result, db'))
    (hu : uuidIn (cString req.sagaId) = some u) :
    (¬Granted db req u ∧ result.status = .insufficientStock ∧ result.reservationId = "") ∨
      (Granted db req u ∧ result.status = .reserved ∧ ∃ i, result.reservationId = uuidOut i ∧
        (db'.reservations.find? u).map Reservation.id = some i) := by
  by_cases hmem : (cString req.idempotencyKey, consumerReserve) ∈ db.processed
  · obtain ⟨message, hanswer⟩ := reserveStock_of_processed newId stamp req hmem hu
    rw [h, Except.ok.injEq, Prod.mk.injEq] at hanswer
    obtain ⟨rfl, rfl⟩ := hanswer
    rw [Granted, if_pos hmem]
    by_cases hres : Reserved db' u
    · obtain ⟨i, hi, hid⟩ := reservedId_of_reserved hres
      rw [if_pos (by rw [hid]; exact uuidOut_ne_empty i)]
      exact Or.inr ⟨hres, rfl, i, hid, hi⟩
    · rw [if_neg (not_not.mpr (reservedId_eq_empty hres))]
      exact Or.inl ⟨hres, rfl, rfl⟩
  · rw [Granted, if_neg hmem]
    obtain ⟨-, hmem'⟩ | ⟨hst, hid, hlack, -⟩ | ⟨hst, hclean, -, v, hv, hid, ht⟩ :=
      reserveStock_cases h
    · exact absurd hmem' hmem
    · refine Or.inl ⟨?_, hst, hid⟩
      rintro ⟨hclean, henough⟩
      obtain hpoison | hlack := hlack
      · simp [hclean] at hpoison
      · omega
    · rw [cString_of_uuidIn hv, hv, Option.some.injEq] at hu
      subst hu
      refine Or.inr ⟨⟨hclean, ht.enough⟩, hst, _, hid, ?_⟩
      rw [ht.reservations]
      exact id_upsertReservation db.reservations ⟨newId, v, req.sku, req.quantity, .reserved⟩

/-- A request that was answered leaves its key. -/
theorem mem_processed_reserveStock {newId : Uuid} {stamp : Stamp} {req : ReserveStockRequest}
    {result : ReserveResult} (h : Server.reserveStock db newId stamp req = .ok (result, db')) :
    (cString req.idempotencyKey, consumerReserve) ∈ db'.processed := by
  obtain ⟨rfl, hmem⟩ | ⟨-, -, -, href⟩ | ⟨-, -, -, u, -, -, ht⟩ := reserveStock_cases h
  · exact hmem
  · rw [href.processed]
    exact List.mem_cons_self
  · rw [ht.processed]
    exact List.mem_cons_self

/-- A request that was answered gets the same answer again, after any other requests, exactly if
its saga id is a UUID and the saga has a RESERVED row if the first call was granted, and has none
if it was not. -/
theorem repeats_iff {newId : Uuid} {stamp : Stamp} {req : ReserveStockRequest}
    {result : ReserveResult} (hfirst : Server.reserveStock db newId stamp req = .ok (result, db'))
    (later : List Request) (newId' : Uuid) (stamp' : Stamp) :
    Repeats (runFrom Request.exec db' later) newId' stamp' req result ↔
      ∃ u ∈ uuidIn (cString req.sagaId),
        (Granted db req u ↔ Reserved (runFrom Request.exec db' later) u) := by
  have hmem := invariant_runFrom (I := fun db : Db =>
    (cString req.idempotencyKey, consumerReserve) ∈ db.processed)
    (fun db q h => mem_processed_exec db q h) later (mem_processed_reserveStock hfirst)
  cases hu : uuidIn (cString req.sagaId) with
  | none =>
    refine iff_of_false ?_ (by simp)
    rintro ⟨message, h⟩
    have hmark : (runFrom Request.exec db' later).markProcessed req.idempotencyKey
        consumerReserve = none := Db.markProcessed_eq_none.mpr (by simpa using hmem)
    simp [Server.reserveStock, reserveStock, reserve, hmark, hu] at h
  | some u =>
  simp only [Option.mem_def, Option.some.injEq, exists_eq_left']
  obtain ⟨message, hagain⟩ := reserveStock_of_processed newId' stamp' req hmem hu
  simp only [Repeats, hagain, Except.ok.injEq, Prod.mk.injEq, and_true]
  obtain ⟨hnot, hst, hid⟩ | ⟨hgrant, hst, i, hid, hrow⟩ := reserveStock_answer hfirst hu
  · simp only [hnot, false_iff, hst, hid]
    by_cases hres : Reserved (runFrom Request.exec db' later) u
    · obtain ⟨i, -, hsame⟩ := reservedId_of_reserved hres
      simp [hsame, uuidOut_ne_empty, hres]
    · simp [reservedId_eq_empty hres, hres]
  · have hrow := invariant_runFrom (I := fun db : Db =>
      (db.reservations.find? u).map Reservation.id = some i) (fun db q h => id_exec db q h) later
      hrow
    simp only [hgrant, true_iff, hst, hid]
    by_cases hres : Reserved (runFrom Request.exec db' later) u
    · obtain ⟨j, hj, hsame⟩ := reservedId_of_reserved hres
      rw [hrow, Option.some.injEq] at hj
      simp [hsame, hj, uuidOut_ne_empty, hres]
    · simp [reservedId_eq_empty hres, hres]

/-- The saga A reserves two of ten units. -/
def twoOfTen : ReserveStockRequest := ⟨sagaA, "k1", "SKU-1", .lit 2⟩

/-- The tables after its first call. -/
def afterTwo : Db := (Request.reserveStock 1 (.ofKey "" 1) twoOfTen).exec (.ofStock tenUnits)

/-- The answer is repeated after another saga has taken the rest. -/
theorem repeats_twoOfTen : ∃ result,
    Server.reserveStock (.ofStock tenUnits) 1 (.ofKey "" 1) twoOfTen = .ok (result, afterTwo) ∧
      Repeats (runFrom Request.exec afterTwo [reserveRequest 2 sagaB "k2" "SKU-1" (.lit 8)]) 3
        (.ofKey "" 3) twoOfTen result := by
  have hu : uuidIn twoOfTen.sagaId = some 10 := by decide +kernel
  obtain ⟨⟨result, db'⟩, hfirst⟩ : ∃ x, Server.reserveStock (.ofStock tenUnits) 1 (.ofKey "" 1)
      twoOfTen = .ok x := by
    rw [Server.reserveStock]
    exact exists_reserveStock (fun _ => exists_moveStock (by decide) (by decide)) hu rfl
      (by decide) (by decide)
  have hdb : afterTwo = db' := by rw [afterTwo, Request.exec, hfirst, committed]
  rw [← hdb] at hfirst
  exact ⟨result, hfirst, (repeats_iff hfirst _ _ _).mpr
    ⟨10, by decide +kernel, iff_of_true (by decide +kernel) (by decide +kernel)⟩⟩

/-- It is not repeated after a release : the saga is told that there is not enough stock. -/
theorem not_repeats_released :
    (Server.reserveStock (.ofStock tenUnits) 1 (.ofKey "" 1) twoOfTen).toOption.map
        (fun x => (x.1.status, x.1.reservationId)) = some (.reserved, uuidOut 1) ∧
      (Server.reserveStock (runFrom Request.exec afterTwo
          [.releaseStock (.ofKey "" 2) ⟨sagaA, uuidOut 1, "k2"⟩]) 3 (.ofKey "" 3)
        twoOfTen).toOption.map (fun x => (x.1.status, x.1.reservationId)) =
          some (.insufficientStock, "") := by
  decide +kernel

/-! ## What the event of a release names -/

/-- The field of an event's data. -/
def dataField (data : Json) (key : String) : Option Json :=
  match data with
  | .obj fields => Json.field? key fields
  | _ => none

/-- The request enqueues one event, InventoryReleased with the id of the reservation `r`. -/
def NamesReleased (db : Db) (q : Request) (r : Reservation) : Prop :=
  ∃ e, (q.exec db).events = db.events ++ [e] ∧ e.value.eventType = "InventoryReleased" ∧
    dataField e.value.data "reservationId" = some (.str (uuidOut r.id))

/-- Return of the units of `r` stays in the range of the columns. -/
def InRange (db : Db) (r : Reservation) : Prop :=
  ∃ stock, moveStock db.stock r.sku (-r.quantity.val) = .ok stock

variable {r : Reservation}

/-- A release that enqueues an event returns the units of a row, and the event has the id that
its caller gives. -/
theorem releases_of_namesReleased (hq : q.release? = some a) (hnames : NamesReleased db q r) :
    a.reservationId = uuidOut r.id ∧ ∃ v r', uuidIn a.sagaId = some v ∧
      Releases db a.stamp v r' (cString a.idem) a.consumer a.event (q.exec db) := by
  obtain ⟨e, hevents, -, hid⟩ := hnames
  have hnil : (q.exec db).events ≠ db.events := by simp [hevents]
  obtain hdb | ⟨newId, stamp, req, rfl, -⟩ |
    ⟨b, hb, hdb | ⟨-, -, v, r', hv, hr⟩⟩ := q.exec_cases db
  · exact absurd (by rw [hdb]) hnil
  · cases hq
  · exact absurd (by rw [hdb]; rfl) hnil
  · obtain rfl : a = b := Option.some.inj (hq.symm.trans hb)
    rw [Db.events, eventsOf_insertOutbox hr.outbox, Db.events, List.append_cancel_left_eq,
      List.cons.injEq] at hevents
    rw [← hevents.1] at hid
    exact ⟨Json.str.inj (Option.some.inj hid), v, r', hv, hr⟩

/-- A release names the reservation exactly if its caller does. -/
theorem namesReleased_of_release (hq : q.release? = some a) (hu : uuidIn a.sagaId = some u)
    (hrow : db.reservations.find? u = some r) (hst : r.status = .reserved)
    (hfresh : (cString a.idem, a.consumer) ∉ db.processed)
    (hfree : db.outbox.find? a.stamp.rowId = none) (htrace : hasNul a.traceparent = false) :
    NamesReleased db q r ↔ InRange db r ∧ a.reservationId = uuidOut r.id := by
  constructor
  · intro hnames
    obtain ⟨hid, v, r', hv, hr⟩ := releases_of_namesReleased hq hnames
    obtain rfl : u = v := Option.some.inj (hu.symm.trans hv)
    obtain rfl : r = r' := Option.some.inj (hrow.symm.trans hr.row)
    exact ⟨⟨_, hr.stock⟩, hid⟩
  · rintro ⟨⟨stock, hmove⟩, hid⟩
    have hr := Request.releases hq hfresh hu hrow hst hmove hfree htrace
      (by rw [hid]; exact hasNul_uuidOut _)
    refine ⟨a.event.record, eventsOf_insertOutbox hr.outbox, rfl, ?_⟩
    exact congrArg (fun id => some (Json.str id)) hid

/-- Of a saga with a RESERVED reservation `r`, a ReleaseStock request with a new key has its
event name `r` exactly if it carries the id of `r` itself (and the stock stays in range),
and a message of Order never does. -/
theorem namesReleased_iff (hrow : db.reservations.find? u = some r) (hst : r.status = .reserved) :
    (∀ stamp req, uuidIn req.sagaId = some u →
      (cString req.idempotencyKey, consumerRelease) ∉ db.processed →
      db.outbox.find? stamp.rowId = none →
      (NamesReleased db (.releaseStock stamp req) r ↔
        InRange db r ∧ req.reservationId = uuidOut r.id)) ∧
    ∀ emitted sagaId ob stamp inTraceparent,
      OrderService.buildEmit emitted sagaId OrderService.eventOrderCancelled = .ok ob →
      uuidIn sagaId = some u →
      (cString ob.payload.idempotencyKey, consumerOrderCancelled) ∉ db.processed →
      db.outbox.find? stamp.rowId = none →
      ¬NamesReleased db (.orderCancelled stamp ob.payload inTraceparent) r := by
  refine ⟨fun stamp req hu hfresh hfree => ?_, fun emitted sagaId ob stamp tp hob hu hfresh hfree =>
    ?_⟩
  · exact namesReleased_of_release (q := .releaseStock stamp req) rfl hu hrow hst hfresh hfree
      stamp.hasNul_traceparent
  · rw [OrderService.buildEmit, if_neg (by simp)] at hob
    cases hob
    intro hnames
    obtain ⟨hid, -⟩ := releases_of_namesReleased (q := .orderCancelled stamp _ tp) rfl hnames
    exact uuidOut_ne_empty r.id hid.symm

/-- The row of the saga A in `afterTwo`. -/
def twoReserved : Reservation := ⟨1, 10, "SKU-1", .lit 2, .reserved⟩

/-- A ReleaseStock request with the id of the row names it. -/
theorem namesReleased_twoReserved :
    NamesReleased afterTwo (.releaseStock (.ofKey "" 2) ⟨sagaA, uuidOut 1, "k2"⟩) twoReserved :=
  ((namesReleased_iff (u := 10) (r := twoReserved) (by decide +kernel) rfl).1 _ _
    (by decide +kernel) (by decide +kernel) (by decide +kernel)).mpr
    ⟨exists_moveStock (by decide +kernel) (by decide +kernel), rfl⟩

/-- The message of Order leaves the id empty, and so does a request that has none; both
release the row. -/
theorem not_namesReleased_cancelled :
    afterTwo.reservations.find? 10 = some twoReserved ∧
      ((Request.orderCancelled (.ofKey "" 2) (OrderService.orderCancelledEvent (.ofKey "k2" 3)
        sagaA).payload "").exec afterTwo).events.getLast?.map
          (fun e => (e.value.eventType, dataField e.value.data "reservationId")) =
        some ("InventoryReleased", some (.str "")) ∧
      ((Request.releaseStock (.ofKey "" 2) ⟨sagaA, "", "k2"⟩).exec afterTwo).events.getLast?.map
          (fun e => (e.value.eventType, dataField e.value.data "reservationId")) =
        some ("InventoryReleased", some (.str "")) := by
  decide +kernel

end Choreography.InventoryService
