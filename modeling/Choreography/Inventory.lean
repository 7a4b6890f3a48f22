import Choreography.Event

/-!
# The Inventory service

The transactions of the repository (`reserve`, `release`), the application layer that
builds their events, and the gRPC server. Deduplication is per idempotency key and
consumer label, while the reservation row is unique per saga : a second reservation of
a saga takes stock and finds the row of the first (`upsertReservation`).

libpq passes texts as C strings, so that the tables see them cut at the first NUL, and JSONB
refuses the payload of an event that holds one. Application code sees them whole.

`reserve_cases` and `release_cases` are everything that one transaction can do, and
`reserveStock_cases` and `handleOrderCancelled_cases` what the handlers make of them.
-/

namespace Choreography.InventoryService

/-! ## The domain -/

def poisonSku : String := "SKU-DEADBEEF"

/-- The SKU that forces a reservation failure. -/
def isPoisonSku (sku : String) : Bool := sku = poisonSku

inductive ReserveStatus
  | unspecified
  | reserved
  | insufficientStock
  deriving DecidableEq, Repr

inductive ReservationState
  | reserved
  | released
  deriving DecidableEq, Repr

/-! ## The tables -/

/-- A row of `stock`. -/
structure StockRow where
  sku : String
  available : Int4
  reserved : Int4

/-- A row of `reservations`. -/
structure Reservation where
  id : Uuid
  sagaId : Uuid
  sku : String
  quantity : Int4
  status : ReservationState
  deriving DecidableEq

abbrev Stock := Table StockRow StockRow.sku

structure Db where
  stock : Stock
  reservations : Table Reservation Reservation.sagaId
  processed : Processed
  outbox : Outbox

/-- The tables of a new deployment with the given stock. -/
def Db.ofStock (stock : Stock) : Db := ⟨stock, Table.empty, [], Table.empty⟩

/-- The events committed to the outbox. -/
def Db.events (db : Db) : List Record := eventsOf db.outbox

/-! ## The repository -/

/-- The result of a reservation attempt. -/
structure ReserveOutcome where
  status : ReserveStatus
  reservationId : String
  duplicate : Bool
  deriving DecidableEq

/-- The result of a release. -/
structure ReleaseOutcome where
  released : Bool
  duplicate : Bool
  deriving DecidableEq

/-- `UPDATE stock SET available = available - q, reserved = reserved + q`; a release
moves the opposite amount. -/
def moveStock (stock : Stock) (sku : String) (q : ℤ) : Except SqlError Stock :=
  match stock.find? sku with
  | none => .ok stock
  | some row =>
    match Int4.ofInt? (row.available.val - q), Int4.ofInt? (row.reserved.val + q) with
    | some available, some reserved =>
      .ok (stock.update sku (fun row => { row with available := available, reserved := reserved })
        fun _ => rfl)
    | _, _ => .error .outOfRange

/-- `INSERT INTO reservations … ON CONFLICT (saga_id) DO UPDATE SET saga_id = …
RETURNING id` : a saga that has a row keeps it as it is. -/
def upsertReservation (reservations : Table Reservation Reservation.sagaId) (r : Reservation) :
    Uuid × Table Reservation Reservation.sagaId :=
  match reservations.insert r with
  | some reservations => (r.id, reservations)
  | none => (((reservations.find? r.sagaId).map Reservation.id).getD r.id, reservations)

/-- `UPDATE reservations SET status = 'RELEASED' WHERE saga_id = …`. -/
def setReleased (reservations : Table Reservation Reservation.sagaId) (u : Uuid) :
    Table Reservation Reservation.sagaId :=
  reservations.update u (fun r => { r with status := .released }) fun _ => rfl

/-- The id of the saga's RESERVED row as text, empty if there is none. -/
def reservedId (db : Db) (u : Uuid) : String :=
  match db.reservations.find? u with
  | some r => if r.status = .reserved then uuidOut r.id else ""
  | none => ""

def consumerReserve : String := "inventory-reserve"

def consumerRelease : String := "inventory-release"

def consumerOrderCancelled : String := "inventory-order-cancelled"

/-- The stock available of a SKU, zero without a row. -/
def available (stock : Stock) (sku : String) : ℤ :=
  match stock.find? sku with
  | none => 0
  | some row => row.available.val

/-- Insert a dedupe marker, without a result if it was already there. -/
def Db.markProcessed (db : Db) (key consumer : String) : Option Processed :=
  Choreography.markProcessed db.processed (cString key) (cString consumer)

/-- Insert an event as a PENDING row, unless its payload is refused. -/
def Db.insertOutbox (db : Db) (stamp : Stamp) (ob : OutboxInsert) : Except SqlError Outbox :=
  if ob.payload.holdsNul then .error .invalidText
  else Choreography.insertOutbox stamp db.outbox ob.cStrings

/-- Reserve stock for a saga in one transaction. `newId` is the id drawn for a new
reservation row. -/
def reserve (db : Db) (newId : Uuid) (stamp : Stamp) (sagaId idempotencyKey sku : String)
    (quantity : Int4) (buildEvent : ReserveOutcome → OutboxInsert) :
    Except SqlError (ReserveOutcome × Db) :=
  match db.markProcessed idempotencyKey consumerReserve with
  | none =>
    match uuidIn (cString sagaId) with
    | none => .error .invalidText
    | some u =>
      if reservedId db u ≠ "" then .ok (⟨.reserved, reservedId db u, true⟩, db)
      else .ok (⟨.insufficientStock, "", true⟩, db)
  | some processed =>
    -- the poison SKU is compared in C++, with the whole text
    if isPoisonSku sku || available db.stock (cString sku) < quantity.val then
      let outcome : ReserveOutcome := ⟨.insufficientStock, "", false⟩
      match db.insertOutbox stamp (buildEvent outcome) with
      | .error e => .error e
      | .ok outbox => .ok (outcome, { db with processed := processed, outbox := outbox })
    else
      match moveStock db.stock (cString sku) quantity.val with
      | .error e => .error e
      | .ok stock =>
        match uuidIn (cString sagaId) with
        | none => .error .invalidText
        | some u =>
          let upsert :=
            upsertReservation db.reservations ⟨newId, u, cString sku, quantity, .reserved⟩
          let outcome : ReserveOutcome := ⟨.reserved, uuidOut upsert.1, false⟩
          match db.insertOutbox stamp (buildEvent outcome) with
          | .error e => .error e
          | .ok outbox =>
            .ok (outcome, { stock := stock, reservations := upsert.2, processed := processed,
                            outbox := outbox })

/-- Release the RESERVED row of a saga in one transaction. The reservation id is not
used. -/
def release (db : Db) (stamp : Stamp) (sagaId _reservationId idempotencyKey consumer : String)
    (buildEvent : ReleaseOutcome → OutboxInsert) : Except SqlError (ReleaseOutcome × Db) :=
  match db.markProcessed idempotencyKey consumer with
  | none => .ok (⟨false, true⟩, db)
  | some processed =>
    match uuidIn (cString sagaId) with
    | none => .error .invalidText
    | some u =>
      match db.reservations.find? u with
      | none => .ok (⟨false, false⟩, { db with processed := processed })
      | some r =>
        if r.status ≠ .reserved then .ok (⟨false, false⟩, { db with processed := processed })
        else
          match moveStock db.stock r.sku (-r.quantity.val) with
          | .error e => .error e
          | .ok stock =>
            match db.insertOutbox stamp (buildEvent ⟨true, false⟩) with
            | .error e => .error e
            | .ok outbox =>
              .ok (⟨true, false⟩,
                { stock := stock, reservations := setReleased db.reservations u,
                  processed := processed, outbox := outbox })

/-! ## Events -/

/-- An event of the service. -/
def outboxEvent (stamp : Stamp) (sagaId eventType : String) (topic : Topic) (traceparent : String)
    (data : Json) : OutboxInsert :=
  ⟨"inventory", sagaId, eventType, topic, Envelope.new stamp eventType sagaId traceparent data,
    traceparent⟩

def reservedEvent (stamp : Stamp) (sagaId sku : String) (quantity : Int4)
    (outcome : ReserveOutcome) (traceparent : String) : OutboxInsert :=
  outboxEvent stamp sagaId "InventoryReserved" .inventoryReserved traceparent
    (.obj [("orderId", .str sagaId), ("sagaId", .str sagaId), ("sku", .str sku),
      ("quantity", .num quantity.val), ("reservationId", .str outcome.reservationId),
      ("status", .str "RESERVED")])

def failedEvent (stamp : Stamp) (sagaId sku : String) (quantity : Int4) (reason : String)
    (traceparent : String) : OutboxInsert :=
  outboxEvent stamp sagaId "InventoryReservationFailed" .inventoryReservationFailed traceparent
    (.obj [("orderId", .str sagaId), ("sagaId", .str sagaId), ("sku", .str sku),
      ("quantity", .num quantity.val), ("reason", .str reason),
      ("status", .str "INSUFFICIENT_STOCK")])

def releasedEvent (stamp : Stamp) (sagaId reservationId traceparent : String) : OutboxInsert :=
  outboxEvent stamp sagaId "InventoryReleased" .inventoryReleased traceparent
    (.obj [("orderId", .str sagaId), ("sagaId", .str sagaId),
      ("reservationId", .str reservationId), ("status", .str "RELEASED")])

/-! ## The application layer -/

/-- The topics that the service subscribes to. -/
def consumedTopics : List Topic := [.orderCancelled]

/-- The typed outcome returned over gRPC. -/
structure ReserveResult where
  status : ReserveStatus
  reservationId : String
  message : String
  deriving DecidableEq

def failureReason (sku : String) : String :=
  if isPoisonSku sku then "poison SKU forced failure" else "insufficient stock"

/-- The event of a reservation attempt, built once its outcome is decided. -/
def reserveEvent (stamp : Stamp) (sagaId sku : String) (quantity : Int4) (traceparent : String)
    (outcome : ReserveOutcome) : OutboxInsert :=
  if outcome.status = .reserved then reservedEvent stamp sagaId sku quantity outcome traceparent
  else failedEvent stamp sagaId sku quantity (failureReason sku) traceparent

def reserveStock (db : Db) (newId : Uuid) (stamp : Stamp) (sagaId idempotencyKey sku : String)
    (quantity : Int4) (traceparent : String) : Except SqlError (ReserveResult × Db) :=
  match reserve db newId stamp sagaId idempotencyKey sku quantity
      (reserveEvent stamp sagaId sku quantity traceparent) with
  | .error e => .error e
  | .ok (outcome, db) =>
    let message :=
      if outcome.status = .reserved then
        if outcome.duplicate then "already reserved" else "reserved"
      else failureReason sku
    .ok (⟨outcome.status, outcome.reservationId, message⟩, db)

def releaseStock (db : Db) (stamp : Stamp) (sagaId reservationId idempotencyKey : String)
    (traceparent : String) : Except SqlError (Bool × Db) :=
  match release db stamp sagaId reservationId idempotencyKey consumerRelease
      (fun _ => releasedEvent stamp sagaId reservationId traceparent) with
  | .error e => .error e
  | .ok (outcome, db) => .ok (outcome.released, db)

/-- How a handler throws. -/
inductive Thrown
  /-- A JSON value of another type than the default's. -/
  | typeError
  | sql (e : SqlError)
  deriving DecidableEq

/-- `data.value(key, default)` of a text field. -/
def dataValue (data : Json) (key default : String) : Except Thrown String :=
  match data with
  | .obj fields =>
    match Json.field? key fields with
    | none => .ok default
    | some (.str s) => .ok s
    | some _ => .error .typeError
  | _ => .error .typeError

/-- Handle `order.cancelled` : release the saga's reservation. -/
def handleOrderCancelled (db : Db) (stamp : Stamp) (env : Envelope) (inTraceparent : String) :
    Except Thrown (ReleaseOutcome × Db) :=
  let traceparent := if env.traceparent ≠ "" then env.traceparent else inTraceparent
  match dataValue env.data "reservationId" "" with
  | .error e => .error e
  | .ok reservationId =>
    match release db stamp env.sagaId reservationId env.idempotencyKey consumerOrderCancelled
        (fun _ => releasedEvent stamp env.sagaId reservationId traceparent) with
    | .error e => .error (.sql e)
    | .ok (outcome, db) => .ok (outcome, db)

/-! ## The gRPC server -/

/-- ReserveStock. The response carries the result as it is. -/
def Server.reserveStock (db : Db) (newId : Uuid) (stamp : Stamp) (req : ReserveStockRequest) :
    Except SqlError (ReserveResult × Db) :=
  InventoryService.reserveStock db newId stamp req.sagaId req.idempotencyKey req.sku req.quantity
    stamp.traceparent

/-- ReleaseStock. -/
def Server.releaseStock (db : Db) (stamp : Stamp) (req : ReleaseStockRequest) :
    Except SqlError (Bool × Db) :=
  InventoryService.releaseStock db stamp req.sagaId req.reservationId req.idempotencyKey
    stamp.traceparent

/-! ## What a statement on `stock` does -/

/-- The stock reserved of a SKU, zero without a row. -/
def reserved (stock : Stock) (sku : String) : ℤ :=
  match stock.find? sku with
  | none => 0
  | some row => row.reserved.val

theorem available_le (stock : Stock) (sku : String) : available stock sku ≤ 2147483647 := by
  unfold available
  split
  · decide
  · next row _ => exact row.available.upper

theorem le_available (stock : Stock) (sku : String) : -2147483648 ≤ available stock sku := by
  unfold available
  split
  · decide
  · next row _ => exact row.available.lower

theorem reserved_le (stock : Stock) (sku : String) : reserved stock sku ≤ 2147483647 := by
  unfold reserved
  split
  · decide
  · next row _ => exact row.reserved.upper

/-- A move of `q` units takes them from `available` of the SKU's row to `reserved`, and
touches no other row. -/
structure Moved (stock : Stock) (sku : String) (q : ℤ) (stock' : Stock) : Prop where
  rows : ∀ sku', (stock'.find? sku').isSome = (stock.find? sku').isSome
  available : ∀ sku', available stock' sku' =
    available stock sku' - if sku' = sku ∧ (stock.find? sku).isSome then q else 0
  reserved : ∀ sku', reserved stock' sku' =
    reserved stock sku' + if sku' = sku ∧ (stock.find? sku).isSome then q else 0

theorem moved_of_moveStock {stock stock' : Stock} {sku : String} {q : ℤ}
    (h : moveStock stock sku q = .ok stock') : Moved stock sku q stock' := by
  unfold moveStock at h
  split at h
  next hnone =>
    rw [Except.ok.injEq] at h
    subst h
    refine ⟨fun _ => rfl, fun _ => ?_, fun _ => ?_⟩ <;> simp [hnone]
  next row hrow =>
  split at h
  next a r ha hr =>
    rw [Int4.ofInt?_eq_some] at ha hr
    rw [Except.ok.injEq] at h
    subst h
    have hfind := Table.find?_update stock sku
      (fun row => { row with available := a, reserved := r }) fun _ => rfl
    refine ⟨fun sku' => ?_, fun sku' => ?_, fun sku' => ?_⟩
    · rw [hfind]
      split_ifs with hs
      · simp [hs]
      · rfl
    · simp only [InventoryService.available, hfind]
      by_cases hs : sku' = sku
      · simp [hs, hrow, ha]
      · simp [hs]
    · simp only [InventoryService.reserved, hfind]
      by_cases hs : sku' = sku
      · simp [hs, hrow, hr]
      · simp [hs]
  · simp at h

/-- A move whose results are in range succeeds. -/
theorem exists_moveStock {stock : Stock} {sku : String} {q : ℤ}
    (ha : -2147483648 ≤ available stock sku - q ∧ available stock sku - q ≤ 2147483647)
    (hr : -2147483648 ≤ reserved stock sku + q ∧ reserved stock sku + q ≤ 2147483647) :
    ∃ stock', moveStock stock sku q = .ok stock' := by
  unfold moveStock
  unfold available at ha
  unfold reserved at hr
  cases hrow : stock.find? sku with
  | none => exact ⟨stock, rfl⟩
  | some row =>
    simp only [hrow] at ha hr
    obtain ⟨a, ha⟩ := Int4.exists_ofInt? ha
    obtain ⟨r, hr⟩ := Int4.exists_ofInt? hr
    exact ⟨stock.update sku (fun row => { row with available := a, reserved := r }) fun _ => rfl,
      by simp only [ha, hr]⟩

/-! ## What one transaction can do -/

/-- The upsert keeps the row of a saga that has one, and adds one otherwise. -/
theorem upsertReservation_cases (reservations : Table Reservation Reservation.sagaId)
    (r : Reservation) :
    ((reservations.find? r.sagaId).isSome ∧ (upsertReservation reservations r).2 = reservations) ∨
      (reservations.find? r.sagaId = none ∧
        reservations.insert r = some (upsertReservation reservations r).2) := by
  unfold upsertReservation
  cases hins : reservations.insert r with
  | some reservations' =>
    exact Or.inr ⟨(Table.insert_eq_some.mp hins).1, rfl⟩
  | none =>
    refine Or.inl ⟨?_, rfl⟩
    by_contra hnone
    obtain ⟨reservations', h⟩ := Table.exists_insert (Option.not_isSome_iff_eq_none.mp hnone)
    simp [hins] at h

theorem find?_upsertReservation {reservations : Table Reservation Reservation.sagaId}
    {r : Reservation} (h : reservations.find? r.sagaId = none) (u : Uuid) :
    (upsertReservation reservations r).2.find? u =
      if u = r.sagaId then some r else reservations.find? u := by
  rcases upsertReservation_cases reservations r with ⟨hsome, -⟩ | ⟨-, hins⟩
  · simp [h] at hsome
  · exact Table.find?_of_insert hins u

/-- The upsert keeps the rows that are there. -/
theorem find?_upsertReservation_of_some {reservations : Table Reservation Reservation.sagaId}
    {u : Uuid} {row : Reservation} (h : reservations.find? u = some row) (r : Reservation) :
    (upsertReservation reservations r).2.find? u = some row := by
  rcases upsertReservation_cases reservations r with ⟨-, hup⟩ | ⟨hnone, hins⟩
  · rw [hup, h]
  · rw [Table.find?_of_insert hins, if_neg, h]
    rintro rfl
    exact nomatch hnone.symm.trans h

theorem mem_upsertReservation {reservations : Table Reservation Reservation.sagaId}
    {row r : Reservation} (h : row ∈ (upsertReservation reservations r).2.rows) :
    row ∈ reservations.rows ∨ row = r := by
  rcases upsertReservation_cases reservations r with ⟨-, hup⟩ | ⟨-, hins⟩
  · rw [hup] at h
    exact Or.inl h
  · rwa [(Table.insert_eq_some.mp hins).2, List.mem_append, List.mem_singleton] at h

/-- The id that the upsert returns is that of the row. -/
theorem id_upsertReservation (reservations : Table Reservation Reservation.sagaId)
    (r : Reservation) :
    ((upsertReservation reservations r).2.find? r.sagaId).map Reservation.id =
      some (upsertReservation reservations r).1 := by
  unfold upsertReservation
  cases hins : reservations.insert r with
  | some reservations' =>
    simp only [Table.find?_of_insert hins, if_true, Option.map_some]
  | none =>
    cases hrow : reservations.find? r.sagaId with
    | none =>
      obtain ⟨reservations', h⟩ := Table.exists_insert hrow
      simp [hins] at h
    | some r' => rfl

@[simp] theorem cString_consumerReserve : cString consumerReserve = consumerReserve := by decide

@[simp] theorem cString_consumerRelease : cString consumerRelease = consumerRelease := by decide

@[simp] theorem cString_consumerOrderCancelled :
    cString consumerOrderCancelled = consumerOrderCancelled := by decide

theorem Db.markProcessed_eq_none {db : Db} {key consumer : String} :
    db.markProcessed key consumer = none ↔ (cString key, cString consumer) ∈ db.processed :=
  Choreography.markProcessed_eq_none

theorem Db.markProcessed_eq_some {db : Db} {processed : Processed} {key consumer : String} :
    db.markProcessed key consumer = some processed ↔ (cString key, cString consumer) ∉
      db.processed ∧ processed = (cString key, cString consumer) :: db.processed :=
  Choreography.markProcessed_eq_some

theorem Db.insertOutbox_eq_ok {db : Db} {stamp : Stamp} {ob : OutboxInsert} {outbox : Outbox} :
    db.insertOutbox stamp ob = .ok outbox ↔ ob.payload.holdsNul = false ∧
      Choreography.insertOutbox stamp db.outbox ob.cStrings = .ok outbox := by
  unfold Db.insertOutbox
  cases ob.payload.holdsNul <;> simp

theorem Db.exists_insertOutbox {db : Db} {stamp : Stamp} {ob : OutboxInsert}
    (hfree : db.outbox.find? stamp.rowId = none) (htext : ob.payload.holdsNul = false) :
    ∃ outbox, db.insertOutbox stamp ob = .ok outbox := by
  obtain ⟨outbox, hb⟩ := Choreography.exists_insertOutbox hfree ob.cStrings
  exact ⟨outbox, Db.insertOutbox_eq_ok.mpr ⟨htext, hb⟩⟩

/-- A reservation that is refused for lack of stock only adds its event. -/
structure Refuses (db : Db) (stamp : Stamp) (idem : String) (ob : OutboxInsert) (db' : Db) :
    Prop where
  fresh : (idem, consumerReserve) ∉ db.processed
  stock : db'.stock = db.stock
  reservations : db'.reservations = db.reservations
  processed : db'.processed = (idem, consumerReserve) :: db.processed
  outbox : insertOutbox stamp db.outbox ob = .ok db'.outbox

/-- A reservation that is granted moves the stock and leaves a row for the saga `u`. -/
structure Takes (db : Db) (newId : Uuid) (stamp : Stamp) (u : Uuid) (idem sku : String)
    (quantity : Int4) (ob : OutboxInsert) (db' : Db) : Prop where
  fresh : (idem, consumerReserve) ∉ db.processed
  enough : quantity.val ≤ available db.stock sku
  stock : moveStock db.stock sku quantity.val = .ok db'.stock
  reservations : db'.reservations =
    (upsertReservation db.reservations ⟨newId, u, sku, quantity, .reserved⟩).2
  processed : db'.processed = (idem, consumerReserve) :: db.processed
  outbox : insertOutbox stamp db.outbox ob = .ok db'.outbox

theorem reserve_cases {db db' : Db} {newId : Uuid} {stamp : Stamp} {sagaId idem sku : String}
    {quantity : Int4} {build : ReserveOutcome → OutboxInsert} {outcome : ReserveOutcome}
    (h : reserve db newId stamp sagaId idem sku quantity build = .ok (outcome, db')) :
    (db' = db ∧ outcome.duplicate = true ∧ (cString idem, consumerReserve) ∈ db.processed) ∨
      ((build outcome).payload.holdsNul = false ∧
        ((outcome = ⟨.insufficientStock, "", false⟩ ∧
            (isPoisonSku sku = true ∨ available db.stock (cString sku) < quantity.val) ∧
            Refuses db stamp (cString idem) (build outcome).cStrings db') ∨
          (outcome.status = .reserved ∧ outcome.duplicate = false ∧ isPoisonSku sku = false ∧
            ∃ u, uuidIn (cString sagaId) = some u ∧ outcome.reservationId = uuidOut
              (upsertReservation db.reservations ⟨newId, u, cString sku, quantity, .reserved⟩).1 ∧
            Takes db newId stamp u (cString idem) (cString sku) quantity
              (build outcome).cStrings db'))) := by
  unfold reserve at h
  split at h
  next hnone =>
    left
    split at h
    · simp at h
    · have hmem := Db.markProcessed_eq_none.mp hnone
      rw [cString_consumerReserve] at hmem
      split_ifs at h <;> simp only [Except.ok.injEq, Prod.mk.injEq] at h <;>
        obtain ⟨rfl, rfl⟩ := h <;> exact ⟨rfl, rfl, hmem⟩
  next processed hsome =>
  obtain ⟨hfresh, rfl⟩ := Db.markProcessed_eq_some.mp hsome
  rw [cString_consumerReserve] at hfresh h
  right
  split at h
  next hlack =>
    simp only [Bool.or_eq_true, decide_eq_true_eq] at hlack
    dsimp only at h
    split at h
    · simp at h
    next outbox hb =>
    obtain ⟨htext, hb⟩ := Db.insertOutbox_eq_ok.mp hb
    simp only [Except.ok.injEq, Prod.mk.injEq] at h
    obtain ⟨rfl, rfl⟩ := h
    exact ⟨htext, Or.inl ⟨rfl, hlack, hfresh, rfl, rfl, rfl, hb⟩⟩
  next hlack =>
    simp only [Bool.or_eq_true, decide_eq_true_eq, not_or, Bool.not_eq_true, not_lt] at hlack
    split at h
    · simp at h
    next stock hmove =>
    split at h
    · simp at h
    next u hu =>
    dsimp only at h
    split at h
    · simp at h
    next outbox hb =>
    obtain ⟨htext, hb⟩ := Db.insertOutbox_eq_ok.mp hb
    simp only [Except.ok.injEq, Prod.mk.injEq] at h
    obtain ⟨rfl, rfl⟩ := h
    exact ⟨htext, Or.inr ⟨rfl, rfl, hlack.1, u, hu, rfl, hfresh, hlack.2, hmove, rfl, rfl, hb⟩⟩

/-- A reservation with a new key takes stock that suffices, if its event is stored. -/
theorem reserve_takes {db : Db} {stamp : Stamp} {sagaId idem sku : String} {quantity : Int4}
    {u : Uuid} {build : ReserveOutcome → OutboxInsert} {stock : Stock} (newId : Uuid)
    (hfresh : (cString idem, consumerReserve) ∉ db.processed) (hclean : isPoisonSku sku = false)
    (henough : quantity.val ≤ available db.stock (cString sku))
    (hmove : moveStock db.stock (cString sku) quantity.val = .ok stock)
    (hu : uuidIn (cString sagaId) = some u) (hfree : db.outbox.find? stamp.rowId = none)
    (htext : (build ⟨.reserved, uuidOut (upsertReservation db.reservations
      ⟨newId, u, cString sku, quantity, .reserved⟩).1, false⟩).payload.holdsNul = false) :
    ∃ outcome db', reserve db newId stamp sagaId idem sku quantity build = .ok (outcome, db') ∧
      Takes db newId stamp u (cString idem) (cString sku) quantity
        (build outcome).cStrings db' := by
  have hmark : db.markProcessed idem consumerReserve =
      some ((cString idem, consumerReserve) :: db.processed) :=
    Db.markProcessed_eq_some.mpr (by simpa using hfresh)
  obtain ⟨outbox, hb⟩ := Db.exists_insertOutbox hfree htext
  refine ⟨⟨.reserved, _, false⟩, ⟨stock, (upsertReservation db.reservations
    ⟨newId, u, cString sku, quantity, .reserved⟩).2, (cString idem, consumerReserve) ::
      db.processed, outbox⟩, ?_, hfresh, henough, hmove, rfl, rfl, (Db.insertOutbox_eq_ok.mp hb).2⟩
  simp [reserve, hmark, hclean, not_lt.mpr henough, hmove, hu, hb]

/-- A reservation with a free outbox row and a payload that is stored succeeds, unless the
stock overflows. -/
theorem exists_reserve {db : Db} {stamp : Stamp} {sagaId sku : String} {quantity : Int4}
    {u : Uuid} (newId : Uuid) (idem : String) {build : ReserveOutcome → OutboxInsert}
    (hmove : quantity.val ≤ available db.stock (cString sku) →
      ∃ stock, moveStock db.stock (cString sku) quantity.val = .ok stock)
    (hu : uuidIn (cString sagaId) = some u) (hfree : db.outbox.find? stamp.rowId = none)
    (htext : ∀ outcome, hasNul outcome.reservationId = false →
      (build outcome).payload.holdsNul = false) :
    ∃ x, reserve db newId stamp sagaId idem sku quantity build = .ok x := by
  cases hm : db.markProcessed idem consumerReserve with
  | none =>
    by_cases hr : reservedId db u = ""
    · exact ⟨_, by simp [reserve, hm, hu, hr]; rfl⟩
    · exact ⟨_, by simp [reserve, hm, hu, hr]; rfl⟩
  | some processed =>
    by_cases hlack : isPoisonSku sku = true ∨ available db.stock (cString sku) < quantity.val
    · obtain ⟨outbox, hb⟩ :=
        Db.exists_insertOutbox hfree (htext ⟨.insufficientStock, "", false⟩ rfl)
      exact ⟨_, by simp [reserve, hm, hlack, hb]; rfl⟩
    · obtain ⟨hclean, henough⟩ := not_or.mp hlack
      obtain ⟨stock, hmove⟩ := hmove (not_lt.mp henough)
      have hfresh := (Db.markProcessed_eq_some.mp hm).1
      rw [cString_consumerReserve] at hfresh
      obtain ⟨outcome, db', hok, -⟩ := reserve_takes newId hfresh
        (Bool.eq_false_of_not_eq_true hclean) (not_lt.mp henough) hmove hu hfree
        (htext _ (hasNul_uuidOut _))
      exact ⟨_, hok⟩

/-- A release of the saga `u` gives back what its RESERVED row holds. -/
structure Releases (db : Db) (stamp : Stamp) (u : Uuid) (r : Reservation) (idem consumer : String)
    (ob : OutboxInsert) (db' : Db) : Prop where
  fresh : (idem, consumer) ∉ db.processed
  row : db.reservations.find? u = some r
  status : r.status = .reserved
  stock : moveStock db.stock r.sku (-r.quantity.val) = .ok db'.stock
  reservations : db'.reservations = setReleased db.reservations u
  processed : db'.processed = (idem, consumer) :: db.processed
  outbox : insertOutbox stamp db.outbox ob = .ok db'.outbox

theorem release_cases {db db' : Db} {stamp : Stamp} {sagaId reservationId idem consumer : String}
    {build : ReleaseOutcome → OutboxInsert} {outcome : ReleaseOutcome}
    (h : release db stamp sagaId reservationId idem consumer build = .ok (outcome, db')) :
    (outcome = ⟨false, true⟩ ∧ db' = db ∧ (cString idem, cString consumer) ∈ db.processed) ∨
      (outcome = ⟨false, false⟩ ∧ (cString idem, cString consumer) ∉ db.processed ∧
        (∃ u, uuidIn (cString sagaId) = some u ∧
          ∀ r, db.reservations.find? u = some r → r.status ≠ .reserved) ∧
        db' = { db with processed := (cString idem, cString consumer) :: db.processed }) ∨
      (outcome = ⟨true, false⟩ ∧ (build ⟨true, false⟩).payload.holdsNul = false ∧
        ∃ u r, uuidIn (cString sagaId) = some u ∧ Releases db stamp u r (cString idem)
          (cString consumer) (build ⟨true, false⟩).cStrings db') := by
  unfold release at h
  split at h
  next hnone =>
    simp only [Except.ok.injEq, Prod.mk.injEq] at h
    obtain ⟨rfl, rfl⟩ := h
    exact Or.inl ⟨rfl, rfl, Db.markProcessed_eq_none.mp hnone⟩
  next processed hsome =>
  obtain ⟨hfresh, rfl⟩ := Db.markProcessed_eq_some.mp hsome
  right
  split at h
  · simp at h
  next u hu =>
  split at h
  next hr =>
    simp only [Except.ok.injEq, Prod.mk.injEq] at h
    obtain ⟨rfl, rfl⟩ := h
    exact Or.inl ⟨rfl, hfresh, ⟨u, hu, by simp [hr]⟩, rfl⟩
  next r hr =>
  split at h
  next hst =>
    simp only [Except.ok.injEq, Prod.mk.injEq] at h
    obtain ⟨rfl, rfl⟩ := h
    refine Or.inl ⟨rfl, hfresh, ⟨u, hu, fun r' hr' => ?_⟩, rfl⟩
    rw [hr, Option.some.injEq] at hr'
    exact hr' ▸ hst
  next hst =>
  split at h
  · simp at h
  next stock hmove =>
  split at h
  · simp at h
  next outbox hb =>
  obtain ⟨htext, hb⟩ := Db.insertOutbox_eq_ok.mp hb
  simp only [Except.ok.injEq, Prod.mk.injEq] at h
  obtain ⟨rfl, rfl⟩ := h
  exact Or.inr ⟨rfl, htext, u, r, hu, hfresh, hr, not_not.mp hst, hmove, rfl, rfl, hb⟩

/-! ## What the handlers run -/

section Events

variable {stamp : Stamp} {sagaId eventType traceparent : String} {topic : Topic} {data : Json}

/-- An event of the service is stored if the saga id, the trace context and the data have no
NUL. -/
theorem holdsNul_outboxEvent (htype : hasNul eventType = false) :
    (outboxEvent stamp sagaId eventType topic traceparent data).payload.holdsNul = false ↔
      hasNul sagaId = false ∧ hasNul traceparent = false ∧ data.holdsNul = false := by
  simp only [outboxEvent, Envelope.holdsNul, Envelope.new, stamp.hasNul_eventId, htype,
    stamp.hasNul_occurredAt, stamp.hasNul_idempotencyKey, Bool.or_eq_false_iff, Bool.false_or,
    Bool.or_false, and_assoc]

/-- An event that is stored is passed as it is. -/
theorem cStrings_outboxEvent (htype : hasNul eventType = false)
    (h : (outboxEvent stamp sagaId eventType topic traceparent data).payload.holdsNul = false) :
    (outboxEvent stamp sagaId eventType topic traceparent data).cStrings =
      outboxEvent stamp sagaId eventType topic traceparent data := by
  obtain ⟨hsaga, htrace, -⟩ := (holdsNul_outboxEvent htype).mp h
  have haggregate : cString "inventory" = "inventory" := by decide
  simp only [outboxEvent, OutboxInsert.cStrings, haggregate, cString_of_hasNul hsaga,
    cString_of_hasNul htype, cString_of_hasNul htrace]

end Events

section Handlers

variable {db db' : Db} {newId : Uuid} {stamp : Stamp} {sagaId idem sku : String} {quantity : Int4}
  {traceparent : String}

/-- The events of ReserveStock are stored if the saga id, the trace context and the SKU have
no NUL. -/
theorem holdsNul_reserveEvent {outcome : ReserveOutcome}
    (hid : hasNul outcome.reservationId = false) :
    (reserveEvent stamp sagaId sku quantity traceparent outcome).payload.holdsNul = false ↔
      hasNul sagaId = false ∧ hasNul traceparent = false ∧ hasNul sku = false := by
  have hreason : hasNul (failureReason sku) = false := by
    unfold failureReason
    split_ifs <;> decide
  have hnames : ∀ key ∈ ["orderId", "sagaId", "sku", "quantity", "reservationId", "status",
      "reason", "RESERVED", "INSUFFICIENT_STOCK"], hasNul key = false := by decide
  simp only [List.forall_mem_cons] at hnames
  unfold reserveEvent
  split_ifs
  · rw [reservedEvent, holdsNul_outboxEvent (by decide)]
    simp only [Json.holdsNul, Json.fieldsHoldNul, hnames, hid, Bool.or_false, Bool.false_or,
      Bool.or_eq_false_iff]
    tauto
  · rw [failedEvent, holdsNul_outboxEvent (by decide)]
    simp only [Json.holdsNul, Json.fieldsHoldNul, hnames, hreason, Bool.or_false, Bool.false_or,
      Bool.or_eq_false_iff]
    tauto

theorem cStrings_reserveEvent {outcome : ReserveOutcome}
    (h : (reserveEvent stamp sagaId sku quantity traceparent outcome).payload.holdsNul = false) :
    (reserveEvent stamp sagaId sku quantity traceparent outcome).cStrings =
      reserveEvent stamp sagaId sku quantity traceparent outcome := by
  unfold reserveEvent at h ⊢
  split_ifs at h ⊢
  · exact cStrings_outboxEvent (by decide) h
  · exact cStrings_outboxEvent (by decide) h

theorem holdsNul_releasedEvent {reservationId : String} :
    (releasedEvent stamp sagaId reservationId traceparent).payload.holdsNul = false ↔
      hasNul sagaId = false ∧ hasNul traceparent = false ∧ hasNul reservationId = false := by
  have hnames : ∀ key ∈ ["orderId", "sagaId", "reservationId", "status", "RELEASED"],
      hasNul key = false := by decide
  simp only [List.forall_mem_cons] at hnames
  rw [releasedEvent, holdsNul_outboxEvent (by decide)]
  simp only [Json.holdsNul, Json.fieldsHoldNul, hnames, Bool.or_false, Bool.false_or,
    Bool.or_eq_false_iff]
  tauto

theorem cStrings_releasedEvent {reservationId : String}
    (h : (releasedEvent stamp sagaId reservationId traceparent).payload.holdsNul = false) :
    (releasedEvent stamp sagaId reservationId traceparent).cStrings =
      releasedEvent stamp sagaId reservationId traceparent :=
  cStrings_outboxEvent (by decide) h

/-- Everything that ReserveStock can do. -/
theorem reserveStock_cases {result : ReserveResult}
    (h : reserveStock db newId stamp sagaId idem sku quantity traceparent = .ok (result, db')) :
    (db' = db ∧ (cString idem, consumerReserve) ∈ db.processed) ∨
      (result.status = .insufficientStock ∧ result.reservationId = "" ∧
        (isPoisonSku sku = true ∨ available db.stock sku < quantity.val) ∧
        Refuses db stamp (cString idem)
          (failedEvent stamp sagaId sku quantity (failureReason sku) traceparent) db') ∨
      (result.status = .reserved ∧ isPoisonSku sku = false ∧ hasNul sku = false ∧
        ∃ u, uuidIn sagaId = some u ∧ result.reservationId = uuidOut
          (upsertReservation db.reservations ⟨newId, u, sku, quantity, .reserved⟩).1 ∧
        Takes db newId stamp u (cString idem) sku quantity (reservedEvent stamp sagaId sku quantity
          ⟨.reserved, result.reservationId, false⟩ traceparent) db') := by
  unfold reserveStock at h
  split at h
  · simp at h
  next outcome db'' hok =>
  simp only [Except.ok.injEq, Prod.mk.injEq] at h
  obtain ⟨rfl, rfl⟩ := h
  obtain ⟨hdb, -, hmem⟩ | ⟨htext, ⟨rfl, hlack, href⟩ | ⟨hst, hdup, hclean, u, hu, hid, ht⟩⟩ :=
    reserve_cases hok
  · exact Or.inl ⟨hdb, hmem⟩
  · rw [cStrings_reserveEvent htext] at href
    obtain ⟨-, -, hsku⟩ := (holdsNul_reserveEvent (by decide)).mp htext
    rw [cString_of_hasNul hsku] at hlack
    exact Or.inr (Or.inl ⟨rfl, rfl, hlack, href⟩)
  · rw [cStrings_reserveEvent htext] at ht
    obtain ⟨hsaga, -, hsku⟩ :=
      (holdsNul_reserveEvent (by rw [hid]; exact hasNul_uuidOut _)).mp htext
    rw [cString_of_hasNul hsku] at hid ht
    rw [cString_of_hasNul hsaga] at hu
    obtain ⟨status, reservationId, duplicate⟩ := outcome
    subst hst hdup
    exact Or.inr (Or.inr ⟨rfl, hclean, hsku, u, hu, hid, ht⟩)

theorem exists_reserveStock {u : Uuid} (hmove : quantity.val ≤ available db.stock sku →
      ∃ stock, moveStock db.stock sku quantity.val = .ok stock)
    (hu : uuidIn sagaId = some u) (hfree : db.outbox.find? stamp.rowId = none)
    (htrace : hasNul traceparent = false) (hsku : hasNul sku = false) :
    ∃ x, reserveStock db newId stamp sagaId idem sku quantity traceparent = .ok x := by
  have htext : ∀ outcome, hasNul outcome.reservationId = false →
      (reserveEvent stamp sagaId sku quantity traceparent outcome).payload.holdsNul = false :=
    fun outcome hid => (holdsNul_reserveEvent hid).mpr ⟨hasNul_of_uuidIn hu, htrace, hsku⟩
  obtain ⟨⟨outcome, db'⟩, hok⟩ := exists_reserve newId idem (by rwa [cString_of_hasNul hsku])
    (by rwa [cString_of_uuidIn hu]) hfree htext
  exact ⟨_, by rw [reserveStock, hok]⟩

/-- Everything that a release can do whose event is InventoryReleased. -/
theorem release_releasedEvent_cases {reservationId consumer : String} {outcome : ReleaseOutcome}
    (h : release db stamp sagaId reservationId idem consumer
      (fun _ => releasedEvent stamp sagaId reservationId traceparent) = .ok (outcome, db')) :
    (outcome = ⟨false, true⟩ ∧ db' = db ∧ (cString idem, cString consumer) ∈ db.processed) ∨
      (outcome = ⟨false, false⟩ ∧ (cString idem, cString consumer) ∉ db.processed ∧
        (∃ u, uuidIn (cString sagaId) = some u ∧
          ∀ r, db.reservations.find? u = some r → r.status ≠ .reserved) ∧
        db' = { db with processed := (cString idem, cString consumer) :: db.processed }) ∨
      (outcome = ⟨true, false⟩ ∧ hasNul traceparent = false ∧ hasNul reservationId = false ∧
        ∃ u r, uuidIn sagaId = some u ∧ Releases db stamp u r (cString idem) (cString consumer)
          (releasedEvent stamp sagaId reservationId traceparent) db') := by
  obtain hdup | hnone | ⟨hout, htext, u, r, hu, hr⟩ := release_cases h
  · exact Or.inl hdup
  · exact Or.inr (Or.inl hnone)
  · obtain ⟨hsaga, htrace, hid⟩ := holdsNul_releasedEvent.mp htext
    rw [cString_of_hasNul hsaga] at hu
    rw [cStrings_releasedEvent htext] at hr
    exact Or.inr (Or.inr ⟨hout, htrace, hid, u, r, hu, hr⟩)

/-- Everything that the handler of `order.cancelled` can do. -/
theorem handleOrderCancelled_cases {env : Envelope} {inTraceparent : String}
    {outcome : ReleaseOutcome}
    (h : handleOrderCancelled db stamp env inTraceparent = .ok (outcome, db')) :
    (outcome.released = false ∧ db' = db ∧
        (cString env.idempotencyKey, consumerOrderCancelled) ∈ db.processed) ∨
      (outcome.released = false ∧
        (cString env.idempotencyKey, consumerOrderCancelled) ∉ db.processed ∧
        (∃ u, uuidIn (cString env.sagaId) = some u ∧
          ∀ r, db.reservations.find? u = some r → r.status ≠ .reserved) ∧
        db' = { db with processed :=
          (cString env.idempotencyKey, consumerOrderCancelled) :: db.processed }) ∨
      ∃ u r ob, uuidIn env.sagaId = some u ∧
        Releases db stamp u r (cString env.idempotencyKey) consumerOrderCancelled ob db' := by
  unfold handleOrderCancelled at h
  dsimp only at h
  split at h
  · simp at h
  next reservationId _ =>
  split at h
  · simp at h
  next hok =>
  simp only [Except.ok.injEq, Prod.mk.injEq] at h
  obtain ⟨rfl, rfl⟩ := h
  rw [← cString_consumerOrderCancelled]
  obtain ⟨rfl, hdb, hmem⟩ | ⟨rfl, hfresh, hsaga, hdb⟩ |
    ⟨-, -, -, u, r, hu, hr⟩ := release_releasedEvent_cases hok
  · exact Or.inl ⟨rfl, hdb, hmem⟩
  · exact Or.inr (Or.inl ⟨rfl, hfresh, hsaga, hdb⟩)
  · exact Or.inr (Or.inr ⟨u, r, _, hu, hr⟩)

/-- A cancellation of a saga that has no reservation goes through. -/
theorem exists_handleOrderCancelled {env : Envelope} {reservationId : String} {u : Uuid}
    (hdata : dataValue env.data "reservationId" "" = .ok reservationId)
    (hu : uuidIn env.sagaId = some u) (hnone : db.reservations.find? u = none) (stamp : Stamp)
    (inTraceparent : String) : ∃ x, handleOrderCancelled db stamp env inTraceparent = .ok x := by
  simp only [handleOrderCancelled, hdata, release, cString_of_uuidIn hu, hu, hnone]
  cases db.markProcessed env.idempotencyKey consumerOrderCancelled with
  | none => exact ⟨_, rfl⟩
  | some processed => exact ⟨_, rfl⟩

end Handlers

end Choreography.InventoryService
