import Choreography.Event

/-!
# The Payment service

The payment rule (`decidePayment`), the transactions of the database
(`recordPayment`, `refund`), and the processor over them. Handling `order.created` is
not one transaction : the payment is committed, then ReserveStock is called, and only
then does the handler return. `handleOrderCreated` is the part up to the commit and
says what the handler does next (`Next`); the call and the return are steps of the
system. `handleCompensation` is one transaction.

The fields of a message are what its JSON has (`Parsed`) : a saga id or a key may be null or no
text at all. A NULL saga id is that of no payment, which a charge may not insert and a refund does
not find; a key that is no text may still be stored as one.

The conversions `float(…)`, `int(…)` and `str(…)` of a JSON value are Python's. Where
they parse or print text, which no event of the saga makes them do, they are the
functions of a `PyText`. A float may be NaN or infinite; the event of such an amount is
not JSON, and Postgres refuses its row. A number beyond the doubles has no float at all.
-/

namespace Choreography

/-- Python's `Envelope`, whose fields are what the JSON has. -/
structure PaymentService.Parsed where
  eventId : Json
  eventType : Json
  schemaVersion : Json
  occurredAt : Json
  sagaId : Json
  idempotencyKey : Json
  traceparent : Json
  data : Json
  deriving DecidableEq

/-- Python's envelope of a message of the saga. -/
def Envelope.parsed (e : Envelope) : PaymentService.Parsed where
  eventId := .str e.eventId
  eventType := .str e.eventType
  schemaVersion := .num e.schemaVersion
  occurredAt := .str e.occurredAt
  sagaId := .str e.sagaId
  idempotencyKey := .str e.idempotencyKey
  traceparent := .str e.traceparent
  data := e.data

namespace PaymentService

/-- A Python float : a finite number, or NaN and the infinities. -/
inductive PyFloat
  | finite (q : ℚ)
  | nonFinite
  deriving DecidableEq

/-! ## The payment rule -/

/-- The double nearest to 66.06. -/
def magicFailureAmount : ℚ := 1162139810094121 / 17592186044416

/-- The double nearest to 0.005. -/
def amountEpsilon : ℚ := 5764607523034235 / 1152921504606846976

structure PaymentDecision where
  approved : Bool
  reason : String

/-- `abs(amount - MAGIC_FAILURE_AMOUNT) < _AMOUNT_EPSILON`. Near the magic amount the
subtraction of doubles is exact. -/
def PyFloat.isMagic : PyFloat → Bool
  | .finite q => |q - magicFailureAmount| < amountEpsilon
  | .nonFinite => false

/-- A charge fails under the global flag, and at the magic amount. -/
def decidePayment (amount : PyFloat) (forceFailure : Bool) : PaymentDecision :=
  if forceFailure then ⟨false, "forced failure flag enabled"⟩
  else if amount.isMagic then ⟨false, "magic failure amount 66.06"⟩
  else ⟨true, "approved"⟩

/-! ## The tables -/

inductive Status
  | processed
  | failed
  | refunded
  deriving DecidableEq, Repr

/-- A row of `payments`. -/
structure Payment where
  sagaId : Uuid
  amount : PyFloat
  status : Status

structure Db where
  payments : Table Payment Payment.sagaId
  processed : Processed
  outbox : Outbox

/-- The tables of a new deployment. -/
def Db.empty : Db := ⟨Table.empty, [], Table.empty⟩

/-- The events committed to the outbox. -/
def Db.events (db : Db) : List Record := eventsOf db.outbox

def refundConsumer : String := "payment-reservation-failed"

/-- Insert an event, if its payload is JSON. -/
def insertEvent (stamp : Stamp) (outbox : Outbox) : Option OutboxInsert → Except SqlError Outbox
  | some ob => insertOutbox stamp outbox ob
  | none => .error .invalidText

theorem insertEvent_eq_ok {stamp : Stamp} {outbox outbox' : Outbox} {ob : Option OutboxInsert}
    (h : insertEvent stamp outbox ob = .ok outbox') :
    ∃ e, ob = some e ∧ insertOutbox stamp outbox e = .ok outbox' := by
  cases ob with
  | none => exact nomatch h
  | some e => exact ⟨e, rfl, h⟩

/-- Insert a payment row and its event in one transaction. `true` when the row was newly
created; a saga that has a row keeps it. -/
def recordPayment (db : Db) (stamp : Stamp) (sagaId : String) (amount : PyFloat)
    (status : Status) (ob : Option OutboxInsert) : Except SqlError (Bool × Db) :=
  match uuidIn sagaId with
  | none => .error .invalidText
  | some u =>
    match db.payments.insert ⟨u, amount, status⟩ with
    | none => .ok (false, db)
    | some payments =>
      match insertEvent stamp db.outbox ob with
      | .error e => .error e
      | .ok outbox => .ok (true, { db with payments := payments, outbox := outbox })

/-- `UPDATE payments SET status = 'REFUNDED' WHERE saga_id = …`. -/
def setRefunded (payments : Table Payment Payment.sagaId) (u : Uuid) :
    Table Payment Payment.sagaId :=
  payments.update u (fun p => { p with status := .refunded }) fun _ => rfl

theorem find?_setRefunded (payments : Table Payment Payment.sagaId) (u v : Uuid) :
    (setRefunded payments u).find? v =
      if v = u then (payments.find? u).map fun p => { p with status := .refunded }
      else payments.find? v :=
  Table.find?_update payments u _ _ v

/-- Refund a PROCESSED payment and enqueue the event in one transaction. `false` if the
message was already processed. -/
def refund (db : Db) (stamp : Stamp) (sagaId : Json) (idempotencyKey : String)
    (ob : Option OutboxInsert) : Except SqlError (Bool × Db) :=
  if hasNul idempotencyKey then .error .invalidText
  else
    match markProcessed db.processed idempotencyKey refundConsumer with
    | none => .ok (false, db)
    | some processed =>
      match sagaId with
      -- `saga_id = NULL` is true of no row
      | .null => .ok (true, { db with processed := processed })
      | .str s =>
        match uuidIn s with
        | none => .error .invalidText
        | some u =>
          if (db.payments.find? u).map Payment.status = some .processed then
            match insertEvent stamp db.outbox ob with
            | .error e => .error e
            | .ok outbox =>
              .ok (true, { payments := setRefunded db.payments u, processed := processed,
                           outbox := outbox })
          else .ok (true, { db with processed := processed })
      | _ => .error .invalidText

/-! ## Reading a message -/

/-- What Python and its libraries make of values that the events of the saga do not have. -/
structure PyText where
  /-- `float(s)`. -/
  float : String → Option PyFloat
  /-- `int(s)`. -/
  int : String → Option ℤ
  /-- `str(v)` of a value that is not text. -/
  repr : Json → String
  /-- What a TEXT column makes of a value that is neither text nor null, if it takes it. -/
  column : Json → Option String
  /-- The propagator reads a traceparent that is neither text nor null. -/
  traceable : Json → Bool

/-- `data.get(key, default)`. -/
def dataGet (data : Json) (key : String) (default : Json) : Option Json :=
  match data with
  | .obj fields => some ((Json.field? key fields).getD default)
  | _ => none

/-- Values that no library takes. -/
def noText : PyText where
  float _ := none
  int _ := none
  repr _ := ""
  column _ := none
  traceable _ := false

/-- `float(v)`. A number that does not fit raises an OverflowError. -/
def PyText.toFloat (py : PyText) : Json → Option PyFloat
  | .num q => if FitsDouble q then some (.finite q) else none
  | .nonFinite => some .nonFinite
  | .bool b => some (.finite (if b then 1 else 0))
  | .str s => py.float s
  | _ => none

theorem PyText.toFloat_zero (py : PyText) : py.toFloat (.num 0) = some (.finite 0) := by
  have hfits : FitsDouble 0 := by decide +kernel
  rw [PyText.toFloat, if_pos hfits]

def PyText.toInt (py : PyText) : Json → Option ℤ
  | .num q => some (q.num.tdiv q.den)
  | .bool b => some (if b then 1 else 0)
  | .str s => py.int s
  | _ => none

def PyText.toStr (py : PyText) : Json → String
  | .str s => s
  | v => py.repr v

/-- A value as the text of a column that is NOT NULL. -/
def PyText.toColumn (py : PyText) : Json → Option String
  | .str s => some s
  | .null => none
  | v => py.column v

/-- `context_from_traceparent` does not raise. -/
def PyText.traces (py : PyText) : Json → Bool
  | .str _ | .null => true
  | v => py.traceable v

/-- A value as a text field of a request, where null is the empty text and any other value
raises. -/
def requestText : Json → Option String
  | .str s => some s
  | .null => some ""
  | _ => none

/-! ## Events -/

def aggregateType : String := "payment"

/-- An event of the service, whose payload carries the trace context of its row. -/
def outboxEvent (stamp : Stamp) (sagaId eventType : String) (topic : Topic) (data : Json) :
    OutboxInsert :=
  ⟨aggregateType, sagaId, eventType, topic,
    Envelope.new stamp eventType sagaId stamp.traceparent data, stamp.traceparent⟩

def processedEvent (stamp : Stamp) (sagaId : String) (amount : ℚ) : OutboxInsert :=
  outboxEvent stamp sagaId "PaymentProcessed" .paymentProcessed
    (.obj [("orderId", .str sagaId), ("sagaId", .str sagaId), ("amount", .num amount),
      ("status", .str "PROCESSED")])

def failedEvent (stamp : Stamp) (sagaId : String) (amount : ℚ) (reason : String) : OutboxInsert :=
  outboxEvent stamp sagaId "PaymentFailed" .paymentFailed
    (.obj [("orderId", .str sagaId), ("sagaId", .str sagaId), ("amount", .num amount),
      ("reason", .str reason), ("status", .str "FAILED")])

def refundedEvent (stamp : Stamp) (sagaId : String) (amount : ℚ) : OutboxInsert :=
  outboxEvent stamp sagaId "PaymentRefunded" .paymentRefunded
    (.obj [("orderId", .str sagaId), ("sagaId", .str sagaId), ("amount", .num amount),
      ("status", .str "REFUNDED")])

/-- The event of an amount, if its payload is JSON. -/
def PyFloat.event (amount : PyFloat) (build : ℚ → OutboxInsert) : Option OutboxInsert :=
  match amount with
  | .finite q => some (build q)
  | .nonFinite => none

theorem PyFloat.event_eq_some {amount : PyFloat} {build : ℚ → OutboxInsert} {ob : OutboxInsert}
    (h : amount.event build = some ob) : ∃ q, amount = .finite q ∧ ob = build q := by
  cases amount with
  | finite q => exact ⟨q, rfl, (Option.some.inj h).symm⟩
  | nonFinite => exact nomatch h

/-! ## The processor -/

/-- The topics that the service subscribes to. -/
def consumedTopics : List Topic := [.orderCreated, .inventoryReservationFailed]

/-- What a handler of `order.created` does after its transaction. -/
inductive Next
  /-- Return. -/
  | done
  /-- Call ReserveStock. -/
  | reserve (req : ReserveStockRequest)
  /-- Raise : the key or the quantity does not fit the request. -/
  | raise

/-- The exceptions of a handler before anything is committed. -/
inductive Raised
  | badData
  | sql (e : SqlError)
  deriving DecidableEq

/-- What a transaction of the processor leaves, the payment result counted, if any, and
what the handler does next. -/
structure Handled where
  db : Db
  counted : Option Status
  next : Next

/-- Record the outcome of a charge. -/
def charge (db : Db) (stamp : Stamp) (forceFailure : Bool) (sagaId : String)
    (idempotencyKey : Json) (amount : PyFloat) (sku : String) (quantity : ℤ) :
    Except Raised Handled :=
  let decision := decidePayment amount forceFailure
  if !decision.approved then
    match recordPayment db stamp sagaId amount .failed
        (amount.event fun q => failedEvent stamp sagaId q decision.reason) with
    | .error e => .error (.sql e)
    | .ok (true, db') => .ok ⟨db', some .failed, .done⟩
    | .ok (false, db') => .ok ⟨db', none, .done⟩
  else
    match recordPayment db stamp sagaId amount .processed
        (amount.event (processedEvent stamp sagaId)) with
    | .error e => .error (.sql e)
    | .ok (false, db') => .ok ⟨db', none, .done⟩
    | .ok (true, db') =>
      match requestText idempotencyKey, Int4.ofInt? quantity with
      | some key, some q => .ok ⟨db', some .processed, .reserve ⟨sagaId, key, sku, q⟩⟩
      | _, _ => .ok ⟨db', some .processed, .raise⟩

/-- Handle `order.created`, up to the commit of the payment. -/
def handleOrderCreated (py : PyText) (forceFailure : Bool) (db : Db) (env : Parsed)
    (stamp : Stamp) : Except Raised Handled :=
  match (dataGet env.data "amount" (.num 0)).bind py.toFloat,
      (dataGet env.data "sku" (.str "")).map py.toStr,
      (dataGet env.data "quantity" (.num 0)).bind py.toInt with
  | some amount, some sku, some quantity =>
    match env.sagaId with
    | .str sagaId => charge db stamp forceFailure sagaId env.idempotencyKey amount sku quantity
    -- the column is a UUID, and NOT NULL
    | _ => .error (.sql .invalidText)
  | _, _, _ => .error .badData

/-- The event of a refund. It is inserted only if the saga id is that of a payment. -/
def compensationEvent (stamp : Stamp) (amount : PyFloat) : Json → Option OutboxInsert
  | .str sagaId => amount.event (refundedEvent stamp sagaId)
  | _ => none

/-- Handle `inventory.reservation_failed`. -/
def handleCompensation (py : PyText) (db : Db) (env : Parsed) (stamp : Stamp) :
    Except Raised Handled :=
  match (dataGet env.data "amount" (.num 0)).bind py.toFloat with
  | none => .error .badData
  | some amount =>
    match py.toColumn env.idempotencyKey with
    | none => .error (.sql .invalidText)
    | some key =>
      match refund db stamp env.sagaId key (compensationEvent stamp amount env.sagaId) with
      | .error e => .error (.sql e)
      | .ok (false, db') => .ok ⟨db', none, .done⟩
      | .ok (true, db') => .ok ⟨db', some .refunded, .done⟩

/-- Route a message to its handler. Other topics are ignored. -/
def handleParsed (py : PyText) (forceFailure : Bool) (db : Db) (topic : Topic) (env : Parsed)
    (stamp : Stamp) : Except Raised Handled :=
  if py.traces env.traceparent then
    match topic with
    | .orderCreated => handleOrderCreated py forceFailure db env stamp
    | .inventoryReservationFailed => handleCompensation py db env stamp
    | _ => .ok ⟨db, none, .done⟩
  else .error .badData

/-- The processor on a message of the saga, whose fields are texts. -/
def handle (py : PyText) (forceFailure : Bool) (db : Db) (topic : Topic) (env : Envelope)
    (stamp : Stamp) : Except Raised Handled :=
  match topic with
  | .orderCreated => handleOrderCreated py forceFailure db env.parsed stamp
  | .inventoryReservationFailed => handleCompensation py db env.parsed stamp
  | _ => .ok ⟨db, none, .done⟩

/-- A message of the saga is handled as any other. -/
theorem handleParsed_parsed (py : PyText) (forceFailure : Bool) (db : Db) (topic : Topic)
    (env : Envelope) (stamp : Stamp) : handleParsed py forceFailure db topic env.parsed stamp =
      handle py forceFailure db topic env stamp :=
  if_pos rfl

/-! ## What one call can do -/

/-- A recorded payment is the first of its saga. -/
theorem recordPayment_eq_true {db db' : Db} {stamp : Stamp} {sagaId : String} {amount : PyFloat}
    {status : Status} {ob : Option OutboxInsert}
    (h : recordPayment db stamp sagaId amount status ob = .ok (true, db')) :
    ∃ u, uuidIn sagaId = some u ∧ db.payments.insert ⟨u, amount, status⟩ = some db'.payments ∧
      db'.processed = db.processed ∧ insertEvent stamp db.outbox ob = .ok db'.outbox := by
  unfold recordPayment at h
  split at h
  · simp at h
  next u hu =>
  split at h
  · simp at h
  next payments hp =>
  split at h
  · simp at h
  next outbox hb =>
  simp only [Except.ok.injEq, Prod.mk.injEq, true_and] at h
  subst h
  exact ⟨u, hu, hp, rfl, hb⟩

theorem recordPayment_eq_false {db db' : Db} {stamp : Stamp} {sagaId : String}
    {amount : PyFloat} {status : Status} {ob : Option OutboxInsert}
    (h : recordPayment db stamp sagaId amount status ob = .ok (false, db')) :
    db' = db ∧ ∃ u p, uuidIn sagaId = some u ∧ db.payments.find? u = some p := by
  unfold recordPayment at h
  split at h
  · simp at h
  next u hu =>
  split at h
  next hnone =>
    simp only [Except.ok.injEq, Prod.mk.injEq, true_and] at h
    subst h
    cases hp : db.payments.find? u with
    | some p => exact ⟨rfl, u, p, hu, hp⟩
    | none =>
      obtain ⟨payments, hins⟩ :=
        Table.exists_insert (t := db.payments) (r := ⟨u, amount, status⟩) hp
      simp [hins] at hnone
  next =>
    split at h
    · simp at h
    · simp at h

/-- The charge of the saga `u` is recorded as `status`, and the tables become `db'`. -/
structure Charged (db : Db) (stamp : Stamp) (u : Uuid) (amount : ℚ) (status : Status)
    (ob : OutboxInsert) (db' : Db) : Prop where
  payments : db.payments.insert ⟨u, .finite amount, status⟩ = some db'.payments
  processed : db'.processed = db.processed
  outbox : insertOutbox stamp db.outbox ob = .ok db'.outbox

/-- What an approved charge goes on to : ReserveStock, if the key and the quantity fit the
request. -/
def nextOf (sagaId : String) (idem : Json) (sku : String) (quantity : ℤ) : Next :=
  match requestText idem, Int4.ofInt? quantity with
  | some key, some q => .reserve ⟨sagaId, key, sku, q⟩
  | _, _ => .raise

theorem nextOf_str (sagaId key sku : String) (quantity : Int4) :
    nextOf sagaId (.str key) sku quantity.val = .reserve ⟨sagaId, key, sku, quantity⟩ := by
  simp [nextOf, requestText]

/-- A recorded payment has a finite amount. -/
theorem charged_of_recordPayment {db db' : Db} {stamp : Stamp} {sagaId : String}
    {amount : PyFloat} {status : Status} {build : ℚ → OutboxInsert}
    (h : recordPayment db stamp sagaId amount status (amount.event build) = .ok (true, db')) :
    ∃ u q, uuidIn sagaId = some u ∧ amount = .finite q ∧
      Charged db stamp u q status (build q) db' := by
  obtain ⟨u, hu, hp, hpr, hb⟩ := recordPayment_eq_true h
  obtain ⟨ob, hob, hb⟩ := insertEvent_eq_ok hb
  obtain ⟨q, rfl, rfl⟩ := PyFloat.event_eq_some hob
  exact ⟨u, q, hu, rfl, hp, hpr, hb⟩

/-- A charge finds the saga's payment and does nothing, or it records the payment and
goes on to the reservation if it was approved. -/
theorem charge_cases {db : Db} {stamp : Stamp} {forceFailure : Bool} {sagaId : String}
    {idem : Json} {amount : PyFloat} {sku : String} {quantity : ℤ} {r : Handled}
    (h : charge db stamp forceFailure sagaId idem amount sku quantity = .ok r) :
    ∃ u, uuidIn sagaId = some u ∧
      ((r.db = db ∧ r.next = .done ∧ ∃ p, db.payments.find? u = some p) ∨
      ∃ q, amount = .finite q ∧
        ((∃ reason, Charged db stamp u q .failed (failedEvent stamp sagaId q reason) r.db ∧
          r.next = .done) ∨
        (Charged db stamp u q .processed (processedEvent stamp sagaId q) r.db ∧
          r.next = nextOf sagaId idem sku quantity))) := by
  unfold charge at h
  dsimp only at h
  split at h
  · split at h
    · simp at h
    next db' hrec =>
      rw [Except.ok.injEq] at h
      subst h
      obtain ⟨u, q, hu, hq, hc⟩ := charged_of_recordPayment hrec
      exact ⟨u, hu, Or.inr ⟨q, hq, Or.inl ⟨_, hc, rfl⟩⟩⟩
    next db' hrec =>
      rw [Except.ok.injEq] at h
      subst h
      obtain ⟨rfl, u, p, hu, hp⟩ := recordPayment_eq_false hrec
      exact ⟨u, hu, Or.inl ⟨rfl, rfl, p, hp⟩⟩
  · split at h
    · simp at h
    next db' hrec =>
      rw [Except.ok.injEq] at h
      subst h
      obtain ⟨rfl, u, p, hu, hp⟩ := recordPayment_eq_false hrec
      exact ⟨u, hu, Or.inl ⟨rfl, rfl, p, hp⟩⟩
    next db' hrec =>
      obtain ⟨u, q, hu, hq, hc⟩ := charged_of_recordPayment hrec
      refine ⟨u, hu, Or.inr ⟨q, hq, Or.inr ?_⟩⟩
      unfold nextOf
      split at h
      · rw [Except.ok.injEq] at h
        exact h ▸ ⟨hc, rfl⟩
      · rw [Except.ok.injEq] at h
        exact h ▸ ⟨hc, rfl⟩

/-- A charge of the magic amount captures nothing. -/
theorem charge_of_isMagic {db : Db} {stamp : Stamp} {forceFailure : Bool} {sagaId : String}
    {idem : Json} {amount : PyFloat} {sku : String} {quantity : ℤ} {r : Handled}
    (h : charge db stamp forceFailure sagaId idem amount sku quantity = .ok r)
    (hm : amount.isMagic = true) :
    r.db = db ∨ ∃ u q ob, Charged db stamp u q .failed ob r.db := by
  have hdeclined : (decidePayment amount forceFailure).approved = false := by
    unfold decidePayment
    split_ifs <;> rfl
  unfold charge at h
  dsimp only at h
  rw [if_pos (by rw [hdeclined]; rfl)] at h
  split at h
  · simp at h
  next db' hrec =>
    rw [Except.ok.injEq] at h
    subst h
    obtain ⟨u, q, -, -, hc⟩ := charged_of_recordPayment hrec
    exact Or.inr ⟨u, q, _, hc⟩
  next db' hrec =>
    rw [Except.ok.injEq] at h
    subst h
    exact Or.inl (recordPayment_eq_false hrec).1

theorem handleOrderCreated_eq_ok {py : PyText} {forceFailure : Bool} {db : Db} {env : Parsed}
    {stamp : Stamp} {r : Handled}
    (h : handleOrderCreated py forceFailure db env stamp = .ok r) :
    ∃ sagaId amount sku quantity, env.sagaId = .str sagaId ∧
      charge db stamp forceFailure sagaId env.idempotencyKey amount sku quantity = .ok r := by
  unfold handleOrderCreated at h
  split at h
  · split at h
    next sagaId hsaga => exact ⟨sagaId, _, _, _, hsaga, h⟩
    · cases h
  · cases h

/-- The same for a message of the saga. -/
theorem handleOrderCreated_parsed_eq_ok {py : PyText} {forceFailure : Bool} {db : Db}
    {env : Envelope} {stamp : Stamp} {r : Handled}
    (h : handleOrderCreated py forceFailure db env.parsed stamp = .ok r) :
    ∃ amount sku quantity, charge db stamp forceFailure env.sagaId (.str env.idempotencyKey) amount
      sku quantity = .ok r := by
  obtain ⟨sagaId, amount, sku, quantity, hsaga, h⟩ := handleOrderCreated_eq_ok h
  rw [← Json.str.inj hsaga] at h
  exact ⟨amount, sku, quantity, h⟩

/-- The compensation message with key `idem` is processed for the saga `u`, and the
tables become `db'`. -/
structure Compensated (db : Db) (stamp : Stamp) (u : Uuid) (idem : String) (ob : OutboxInsert)
    (db' : Db) : Prop where
  fresh : (idem, refundConsumer) ∉ db.processed
  processed : db'.processed = (idem, refundConsumer) :: db.processed
  tables : if (db.payments.find? u).map Payment.status = some .processed
    then db'.payments = setRefunded db.payments u ∧ insertOutbox stamp db.outbox ob = .ok db'.outbox
    else db'.payments = db.payments ∧ db'.outbox = db.outbox

/-- A refund of no saga only adds its key. -/
structure Missed (db : Db) (idem : String) (db' : Db) : Prop where
  fresh : (idem, refundConsumer) ∉ db.processed
  db : db' = { db with processed := (idem, refundConsumer) :: db.processed }

/-- A refund finds its message processed and does nothing, or it processes it. -/
theorem refund_cases {db db' : Db} {stamp : Stamp} {sagaId : Json} {idem : String}
    {amount : PyFloat} {b : Bool}
    (h : refund db stamp sagaId idem (compensationEvent stamp amount sagaId) = .ok (b, db')) :
    (b = false ∧ db' = db ∧ (idem, refundConsumer) ∈ db.processed) ∨
      (b = true ∧ hasNul idem = false ∧ ((sagaId = .null ∧ Missed db idem db') ∨
        ∃ s u q, sagaId = .str s ∧ uuidIn s = some u ∧
          Compensated db stamp u idem (refundedEvent stamp s q) db' ∧
          ((db.payments.find? u).map Payment.status = some .processed → amount = .finite q))) := by
  unfold refund at h
  split at h
  · cases h
  next htext =>
  rw [Bool.not_eq_true] at htext
  split at h
  next hnone =>
    simp only [Except.ok.injEq, Prod.mk.injEq] at h
    exact Or.inl ⟨h.1.symm, h.2.symm, markProcessed_eq_none.mp hnone⟩
  next processed hsome =>
  obtain ⟨hfresh, rfl⟩ := markProcessed_eq_some.mp hsome
  split at h
  · simp only [Except.ok.injEq, Prod.mk.injEq] at h
    exact Or.inr ⟨h.1.symm, htext, Or.inl ⟨rfl, hfresh, h.2.symm⟩⟩
  next s =>
    split at h
    · cases h
    next u hu =>
    split at h
    next hst =>
      split at h
      · cases h
      next outbox hb =>
      obtain ⟨ob, hob, hb⟩ := insertEvent_eq_ok hb
      obtain ⟨q, rfl, rfl⟩ := PyFloat.event_eq_some hob
      simp only [Except.ok.injEq, Prod.mk.injEq] at h
      obtain ⟨hb', rfl⟩ := h
      exact Or.inr ⟨hb'.symm, htext, Or.inr ⟨s, u, q, rfl, hu,
        ⟨hfresh, rfl, by simp [hst, hb]⟩, fun _ => rfl⟩⟩
    next hst =>
      simp only [Except.ok.injEq, Prod.mk.injEq] at h
      obtain ⟨hb', rfl⟩ := h
      exact Or.inr ⟨hb'.symm, htext, Or.inr ⟨s, u, 0, rfl, hu, ⟨hfresh, rfl, by simp [hst]⟩,
        fun h => absurd h hst⟩⟩
  · cases h

/-- A compensation finds its message processed, or it processes it, and refunds what the
message says. -/
theorem handleCompensation_cases {py : PyText} {db : Db} {env : Parsed} {stamp : Stamp}
    {r : Handled} (h : handleCompensation py db env stamp = .ok r) :
    ∃ amount key, (dataGet env.data "amount" (.num 0)).bind py.toFloat = some amount ∧
      py.toColumn env.idempotencyKey = some key ∧ r.next = .done ∧
      ((r.counted = none ∧ r.db = db ∧ (key, refundConsumer) ∈ db.processed) ∨
        (r.counted = some .refunded ∧ hasNul key = false ∧
          ((env.sagaId = .null ∧ Missed db key r.db) ∨
            ∃ s u q, env.sagaId = .str s ∧ uuidIn s = some u ∧
              Compensated db stamp u key (refundedEvent stamp s q) r.db ∧
              ((db.payments.find? u).map Payment.status = some .processed →
                amount = .finite q)))) := by
  unfold handleCompensation at h
  split at h
  · cases h
  next amount hamount =>
  split at h
  · cases h
  next key hkey =>
  refine ⟨amount, key, hamount, hkey, ?_⟩
  split at h
  · cases h
  next hr =>
    rw [Except.ok.injEq] at h
    subst h
    obtain ⟨-, hdb, hmem⟩ | ⟨hb, -⟩ := refund_cases hr
    · exact ⟨rfl, Or.inl ⟨rfl, hdb, hmem⟩⟩
    · cases hb
  next hr =>
    rw [Except.ok.injEq] at h
    subst h
    obtain ⟨hb, -⟩ | ⟨-, hcases⟩ := refund_cases hr
    · cases hb
    · exact ⟨rfl, Or.inr ⟨rfl, hcases⟩⟩

/-- The same for a message of the saga. -/
theorem handleCompensation_parsed_cases {py : PyText} {db : Db} {env : Envelope} {stamp : Stamp}
    {r : Handled} (h : handleCompensation py db env.parsed stamp = .ok r) :
    r.next = .done ∧ ((r.db = db ∧ (env.idempotencyKey, refundConsumer) ∈ db.processed) ∨
      ∃ u amount, uuidIn env.sagaId = some u ∧
        Compensated db stamp u env.idempotencyKey (refundedEvent stamp env.sagaId amount) r.db ∧
        ((db.payments.find? u).map Payment.status = some .processed →
          (dataGet env.data "amount" (.num 0)).bind py.toFloat = some (.finite amount))) := by
  obtain ⟨amount, key, hamount, hkey, hnext, hcases⟩ := handleCompensation_cases h
  obtain rfl : env.idempotencyKey = key := Option.some.inj hkey
  refine ⟨hnext, ?_⟩
  obtain ⟨-, hdb, hmem⟩ | ⟨-, -, ⟨hnull, -⟩ | ⟨s, u, q, hs, hu, hc, hq⟩⟩ := hcases
  · exact Or.inl ⟨hdb, hmem⟩
  · cases hnull
  · obtain rfl : env.sagaId = s := Json.str.inj hs
    exact Or.inr ⟨u, q, hu, hc, fun hst => by rw [hq hst] at hamount; exact hamount⟩

/-- The refund of a captured payment enqueues PaymentRefunded with the amount that the
message gives. -/
theorem handleCompensation_of_captured (py : PyText) {db : Db} {env : Envelope} {stamp : Stamp}
    {u : Uuid} {q : ℚ} (htext : hasNul env.idempotencyKey = false)
    (hfresh : (env.idempotencyKey, refundConsumer) ∉ db.processed)
    (hu : uuidIn env.sagaId = some u)
    (hst : (db.payments.find? u).map Payment.status = some .processed)
    (hrow : db.outbox.find? stamp.rowId = none)
    (hq : (dataGet env.data "amount" (.num 0)).bind py.toFloat = some (.finite q)) :
    ∃ r, handleCompensation py db env.parsed stamp = .ok r ∧
      r.db.events = db.events ++ [(refundedEvent stamp env.sagaId q).record] := by
  obtain ⟨outbox, hb⟩ := exists_insertOutbox hrow (refundedEvent stamp env.sagaId q)
  have hinsert : insertEvent stamp db.outbox
      (compensationEvent stamp (.finite q) (.str env.sagaId)) = .ok outbox := hb
  simp only [handleCompensation, Envelope.parsed, hq, PyText.toColumn, refund, htext,
    markProcessed_eq_some.mpr ⟨hfresh, rfl⟩, hu, if_pos hst, hinsert, Bool.false_eq_true, if_false]
  exact ⟨_, rfl, eventsOf_insertOutbox hb⟩

/-- A charge of a finite amount goes through, when its outbox row has a free id. -/
theorem exists_charge {db : Db} {stamp : Stamp} {sagaId : String} {u : Uuid}
    (hu : uuidIn sagaId = some u) (hrow : db.outbox.find? stamp.rowId = none)
    (forceFailure : Bool) (idem : Json) (q : ℚ) (sku : String) (quantity : ℤ) :
    ∃ r, charge db stamp forceFailure sagaId idem (.finite q) sku quantity = .ok r := by
  have hrecord : ∀ (status : Status) (build : ℚ → OutboxInsert), ∃ b db',
      recordPayment db stamp sagaId (.finite q) status ((PyFloat.finite q).event build) =
        .ok (b, db') := by
    intro status build
    cases hp : db.payments.insert ⟨u, .finite q, status⟩ with
    | none => exact ⟨false, db, by simp only [recordPayment, hu, hp]⟩
    | some payments =>
      obtain ⟨outbox, hb⟩ := exists_insertOutbox hrow (build q)
      have hinsert : insertEvent stamp db.outbox ((PyFloat.finite q).event build) = .ok outbox := hb
      exact ⟨true, { db with payments := payments, outbox := outbox },
        by simp only [recordPayment, hu, hp, hinsert]⟩
  unfold charge
  dsimp only
  split_ifs
  · obtain ⟨b, db', hb⟩ := hrecord .failed fun q' =>
      failedEvent stamp sagaId q' (decidePayment (.finite q) forceFailure).reason
    cases b <;> simp only [hb] <;> exact ⟨_, rfl⟩
  · obtain ⟨b, db', hb⟩ := hrecord .processed (processedEvent stamp sagaId)
    cases b <;> simp only [hb]
    · exact ⟨_, rfl⟩
    · split <;> exact ⟨_, rfl⟩

/-- A compensation of a finite amount goes through, when its outbox row has a free id. -/
theorem exists_handleCompensation (py : PyText) {db : Db} {env : Envelope} {stamp : Stamp}
    {u : Uuid} {q : ℚ} (htext : hasNul env.idempotencyKey = false)
    (hu : uuidIn env.sagaId = some u) (hrow : db.outbox.find? stamp.rowId = none)
    (hq : (dataGet env.data "amount" (.num 0)).bind py.toFloat = some (.finite q)) :
    ∃ r, handleCompensation py db env.parsed stamp = .ok r := by
  obtain ⟨outbox, hb⟩ := exists_insertOutbox hrow (refundedEvent stamp env.sagaId q)
  have hinsert : insertEvent stamp db.outbox
      (compensationEvent stamp (.finite q) (.str env.sagaId)) = .ok outbox := hb
  simp only [handleCompensation, Envelope.parsed, hq, PyText.toColumn, refund, htext,
    Bool.false_eq_true, if_false]
  cases markProcessed db.processed env.idempotencyKey refundConsumer with
  | none => exact ⟨_, rfl⟩
  | some processed =>
    simp only [hu, hinsert]
    split_ifs <;> exact ⟨_, rfl⟩

theorem enqueued_charge {db : Db} {stamp : Stamp} {forceFailure : Bool} {sagaId : String}
    {idem : Json} {amount : PyFloat} {sku : String} {quantity : ℤ} {r : Handled}
    (h : charge db stamp forceFailure sagaId idem amount sku quantity = .ok r) :
    Enqueued db.outbox r.db.outbox := by
  obtain ⟨u, -, ⟨hdb, -⟩ | ⟨q, -, ⟨reason, hc, -⟩ | ⟨hc, -⟩⟩⟩ := charge_cases h
  · exact Or.inl (by rw [hdb])
  · exact enqueued_of_insertOutbox hc.outbox
  · exact enqueued_of_insertOutbox hc.outbox

theorem enqueued_handle {py : PyText} {forceFailure : Bool} {db : Db} {topic : Topic}
    {env : Envelope} {stamp : Stamp} {r : Handled}
    (h : handle py forceFailure db topic env stamp = .ok r) : Enqueued db.outbox r.db.outbox := by
  unfold handle at h
  split at h
  · obtain ⟨amount, sku, quantity, h⟩ := handleOrderCreated_parsed_eq_ok h
    exact enqueued_charge h
  · rcases (handleCompensation_parsed_cases h).2 with ⟨hdb, -⟩ | ⟨u, amount, -, hc, -⟩
    · exact Or.inl (by rw [hdb])
    · have htables := hc.tables
      split_ifs at htables
      · exact enqueued_of_insertOutbox htables.2
      · exact Or.inl htables.2
  · exact Or.inl (by rw [← Except.ok.inj h])

/-- Payment reads the amount, the SKU and the quantity of an order as Order wrote them. -/
theorem handleOrderCreated_of_data {env : Envelope} {orderId customerId sku : String}
    {quantity : Int4} {amount : Float64}
    (h : env.data = .obj [("orderId", .str orderId), ("customerId", .str customerId),
      ("sku", .str sku), ("quantity", .num quantity.val), ("amount", .num amount.val)])
    (py : PyText) (forceFailure : Bool) (db : Db) (stamp : Stamp) :
    handleOrderCreated py forceFailure db env.parsed stamp =
      charge db stamp forceFailure env.sagaId (.str env.idempotencyKey) (.finite amount.val) sku
        quantity.val := by
  have hamount : (dataGet env.data "amount" (.num 0)).bind py.toFloat =
      some (.finite amount.val) := by
    have hget : dataGet env.data "amount" (.num 0) = some (.num amount.val) := by
      rw [h]
      rfl
    rw [hget, Option.bind_some, PyText.toFloat, if_pos amount.fits]
  have hsku : (dataGet env.data "sku" (.str "")).map py.toStr = some sku := by
    rw [h]
    rfl
  have hquantity : (dataGet env.data "quantity" (.num 0)).bind py.toInt = some quantity.val := by
    have hget : dataGet env.data "quantity" (.num 0) = some (.num quantity.val) := by
      rw [h]
      rfl
    simp [hget, PyText.toInt]
  simp only [handleOrderCreated, Envelope.parsed, hamount, hsku, hquantity]

end PaymentService

end Choreography
