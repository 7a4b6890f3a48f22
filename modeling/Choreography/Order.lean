import Choreography.Event

/-!
# The Order service

The saga state machine (`apply`), the transactions of the store
(`Store.createOrder`, `Store.handleEvent`), and the application layer over them
(`createOrder`, `handleEvent`). A transaction returns the tables after its commit, or
the error that rolled it back.

`handleEvent_cases` is everything that one delivery can do : fail and leave the tables
as they were, find the key already processed, drop the event, or apply it.
-/

namespace Choreography.OrderService

/-! ## The state machine -/

/-- The order saga state. -/
inductive Status
  | pending
  | paymentOk
  | confirmed
  | compensating
  | cancelled
  deriving DecidableEq, Repr

/-- The saga has reached a final state. -/
def Status.isTerminal (s : Status) : Bool := s = .confirmed || s = .cancelled

/-- The inbound event types. -/
inductive Trigger
  | paymentProcessed
  | paymentFailed
  | inventoryReserved
  | inventoryReservationFail
  | paymentRefunded
  deriving DecidableEq, Repr

def eventOrderCancelled : String := "OrderCancelled"

inductive TransitionError
  /-- A trigger that is not defined for the state; callers drop the event. -/
  | invalidTransition
  /-- An event that arrived before its prerequisite; callers park and retry. -/
  | prematureEvent
  deriving DecidableEq, Repr

/-- The outcome of applying a trigger to a status. -/
structure Result where
  next : Status
  changed : Bool
  /-- The compensation events to publish. -/
  emit : List String := []
  deriving DecidableEq

/-- The state machine. -/
def apply (cur : Status) (t : Trigger) : Result × Option TransitionError :=
  match cur, t with
  | .pending, .paymentProcessed => ({ next := .paymentOk, changed := true }, none)
  | .pending, .paymentFailed =>
    ({ next := .cancelled, changed := true, emit := [eventOrderCancelled] }, none)
  | .pending, .inventoryReservationFail =>
    ({ next := .cancelled, changed := true, emit := [eventOrderCancelled] }, none)
  | .pending, .inventoryReserved => ({ next := cur, changed := false }, some .prematureEvent)
  | .pending, .paymentRefunded => ({ next := cur, changed := false }, some .prematureEvent)
  | .paymentOk, .inventoryReserved => ({ next := .confirmed, changed := true }, none)
  | .paymentOk, .inventoryReservationFail => ({ next := .compensating, changed := true }, none)
  | .paymentOk, .paymentProcessed => ({ next := .paymentOk, changed := false }, none)
  | .paymentOk, .paymentRefunded => ({ next := cur, changed := false }, some .prematureEvent)
  | .compensating, .paymentRefunded =>
    ({ next := .cancelled, changed := true, emit := [eventOrderCancelled] }, none)
  | .compensating, .inventoryReservationFail => ({ next := .compensating, changed := false }, none)
  | .confirmed, _ => ({ next := cur, changed := false }, none)
  | .cancelled, _ => ({ next := cur, changed := false }, none)
  | _, _ => ({ next := cur, changed := false }, some .invalidTransition)

/-- A result that changes nothing keeps the status and emits nothing. -/
theorem apply_unchanged (cur : Status) (t : Trigger) (h : (apply cur t).1.changed = false) :
    (apply cur t).1.next = cur ∧ (apply cur t).1.emit = [] := by
  revert h
  cases cur <;> cases t <;> decide

/-- The trigger makes the saga CANCELLED. -/
def Cancels (cur : Status) (t : Trigger) : Prop :=
  cur ≠ .cancelled ∧ (apply cur t).1.next = .cancelled

instance (cur : Status) (t : Trigger) : Decidable (Cancels cur t) :=
  inferInstanceAs (Decidable (_ ∧ _))

/-- The saga emits its cancellation exactly when it becomes CANCELLED. -/
theorem apply_emit (cur : Status) (t : Trigger) :
    (apply cur t).1.emit = if Cancels cur t then [eventOrderCancelled] else [] := by
  cases cur <;> cases t <;> decide

/-! ## The tables -/

/-- A row of `orders`. -/
structure Order where
  id : Uuid
  customerId : String
  sku : String
  quantity : Int4
  amount : Float64
  status : Status
  deriving DecidableEq

structure Db where
  orders : Table Order Order.id
  processed : Processed
  outbox : Outbox

/-- The tables of a new deployment. -/
def Db.empty : Db := ⟨Table.empty, [], Table.empty⟩

/-- The events committed to the outbox. -/
def Db.events (db : Db) : List Record := eventsOf db.outbox

inductive Error
  | notFound
  | transition (e : TransitionError)
  | unsupportedEmit (evType : String)
  | sql (e : SqlError)
  deriving DecidableEq

/-! ## The store -/

/-- `UPDATE orders SET status = … WHERE id = …`. -/
def setStatus (orders : Table Order Order.id) (id : Uuid) (next : Status) : Table Order Order.id :=
  orders.update id (fun o => { o with status := next }) fun _ => rfl

theorem find?_setStatus (orders : Table Order Order.id) (id : Uuid) (next : Status) (u : Uuid) :
    (setStatus orders id next).find? u =
      if u = id then (orders.find? id).map fun o => { o with status := next }
      else orders.find? u :=
  Table.find?_update orders id _ _ u

/-- Persist an order and its event in one transaction. -/
def Store.createOrder (db : Db) (stamp : Stamp) (id customerId sku : String) (quantity : Int4)
    (amount : Float64) (status : Status) (ob : OutboxInsert) : Except SqlError Db :=
  match uuidIn id with
  | none => .error .invalidText
  | some uid =>
    if hasNul customerId || hasNul sku then .error .invalidText
    else
      match db.orders.insert ⟨uid, customerId, sku, quantity, amount, status⟩ with
      | none => .error .uniqueViolation
      | some orders =>
        match insertOutbox stamp db.outbox ob with
        | .error e => .error e
        | .ok outbox => .ok { db with orders := orders, outbox := outbox }

/-- Process a consumed event in one transaction : record its key, apply the transition
`fn`, and enqueue what it emits. `true` for a duplicate that was skipped. -/
def Store.handleEvent (db : Db) (stamp : Stamp) (idemKey consumer orderId : String)
    (fn : Status → Except Error (Status × List OutboxInsert × Bool)) : Except Error (Bool × Db) :=
  if hasNul idemKey then .error (.sql .invalidText)
  else
    match markProcessed db.processed idemKey consumer with
    | none => .ok (true, db)
    | some processed =>
      match uuidIn orderId with
      | none => .error (.sql .invalidText)
      | some id =>
        match db.orders.find? id with
        | none => .error .notFound
        | some o =>
          match fn o.status with
          | .error e => .error e
          | .ok (next, emit, changed) =>
            if !changed then .ok (false, { db with processed := processed })
            else
              match emit.foldlM (insertOutbox stamp) db.outbox with
              | .error e => .error (.sql e)
              | .ok outbox =>
                .ok (false,
                  { orders := setStatus db.orders id next
                    processed := processed
                    outbox := outbox })

/-! ## The application layer -/

def aggregateType : String := "order"

def consumerName : String := "order-service"

/-- The topics that the service subscribes to. -/
def consumedTopics : List Topic :=
  [.paymentProcessed, .paymentFailed, .inventoryReserved, .inventoryReservationFailed,
    .paymentRefunded]

/-- The trigger of an inbound topic. -/
def topicTrigger : Topic → Option Trigger
  | .paymentProcessed => some .paymentProcessed
  | .paymentFailed => some .paymentFailed
  | .inventoryReserved => some .inventoryReserved
  | .inventoryReservationFailed => some .inventoryReservationFail
  | .paymentRefunded => some .paymentRefunded
  | _ => none

/-- The topic that a trigger comes from. -/
def Trigger.topic : Trigger → Topic
  | .paymentProcessed => .paymentProcessed
  | .paymentFailed => .paymentFailed
  | .inventoryReserved => .inventoryReserved
  | .inventoryReservationFail => .inventoryReservationFailed
  | .paymentRefunded => .paymentRefunded

theorem topicTrigger_eq_some {topic : Topic} {t : Trigger} :
    topicTrigger topic = some t ↔ topic = t.topic := by
  cases topic <;> cases t <;> decide

/-- The payload of OrderCreated. -/
def orderCreatedData (orderId customerId sku : String) (quantity : Int4) (amount : Float64) :
    Json :=
  .obj [("orderId", .str orderId), ("customerId", .str customerId), ("sku", .str sku),
    ("quantity", .num quantity.val), ("amount", .num amount.val)]

/-- The payload of OrderCancelled. -/
def orderCancelledData (orderId reason : String) : Json :=
  .obj [("orderId", .str orderId), ("reason", .str reason)]

/-- The OrderCreated event of an order. -/
def orderCreatedEvent (stamp : Stamp) (orderId customerId sku : String) (quantity : Int4)
    (amount : Float64) : OutboxInsert :=
  let env := Envelope.new stamp "OrderCreated" orderId stamp.traceparent
    (orderCreatedData orderId customerId sku quantity amount)
  ⟨aggregateType, orderId, "OrderCreated", .orderCreated, env, env.traceparent⟩

/-- Persist a PENDING order under a new id and enqueue OrderCreated. -/
def createOrder (db : Db) (orderId : String) (stamp : Stamp) (customerId sku : String)
    (quantity : Int4) (amount : Float64) : Except SqlError Db :=
  Store.createOrder db stamp orderId customerId sku quantity amount .pending
    (orderCreatedEvent stamp orderId customerId sku quantity amount)

/-- The OrderCancelled event of a saga. -/
def orderCancelledEvent (stamp : Stamp) (sagaId : String) : OutboxInsert :=
  let env := Envelope.new stamp "OrderCancelled" sagaId stamp.traceparent
    (orderCancelledData sagaId "saga compensation")
  ⟨aggregateType, sagaId, "OrderCancelled", .orderCancelled, env, env.traceparent⟩

def buildEmit (stamp : Stamp) (sagaId evType : String) : Except Error OutboxInsert :=
  if evType ≠ eventOrderCancelled then .error (.unsupportedEmit evType)
  else .ok (orderCancelledEvent stamp sagaId)

/-- The transition that `handleEvent` runs in the transaction. -/
def eventTx (trigger : Trigger) (stamp : Stamp) (sagaId : String) (cur : Status) :
    Except Error (Status × List OutboxInsert × Bool) :=
  match apply cur trigger with
  | (_, some e) => .error (.transition e)
  | (res, none) =>
    match res.emit.mapM (buildEmit stamp sagaId) with
    | .error e => .error e
    | .ok emit => .ok (res.next, emit, res.changed)

inductive Terminal
  | confirmed
  | cancelled
  deriving DecidableEq, Repr

/-- What `saga_terminal_total` counts for an order after an event. -/
def recordTerminal (db : Db) (orderId : String) : Option Terminal :=
  match uuidIn orderId with
  | none => none
  | some id =>
    match db.orders.find? id with
    | none => none
    | some o =>
      if !o.status.isTerminal then none
      else if o.status = .cancelled then some .cancelled else some .confirmed

/-- What a delivery leaves : the tables, the error returned to the consumer, if any,
and the order counted. -/
structure Handled where
  db : Db
  err : Option Error
  counted : Option Terminal

/-- Process one consumed event. `value` is what `event.Parse` makes of the message. -/
def handleEvent (db : Db) (topic : Topic) (value : Option Envelope) (stamp : Stamp) : Handled :=
  match topicTrigger topic with
  | none => ⟨db, none, none⟩
  | some trigger =>
    match value with
    | none => ⟨db, none, none⟩
    | some env =>
      match Store.handleEvent db stamp env.idempotencyKey consumerName env.sagaId
          (eventTx trigger stamp env.sagaId) with
      | .error .notFound => ⟨db, none, none⟩
      | .error (.transition .invalidTransition) => ⟨db, none, none⟩
      | .error e => ⟨db, some e, none⟩
      | .ok (true, db') => ⟨db', none, none⟩
      | .ok (false, db') => ⟨db', none, recordTerminal db' env.sagaId⟩

/-! ## The gRPC server -/

structure CreateOrderRequest where
  customerId : String
  sku : String
  quantity : Int4
  amount : Float64

inductive CreateError
  | invalidArgument
  | internal (e : SqlError)

/-- CreateOrder, with the id and the stamp that it draws. -/
def Server.createOrder (db : Db) (req : CreateOrderRequest) (orderId : String) (stamp : Stamp) :
    Except CreateError Db :=
  if req.sku = "" ∨ req.quantity.val ≤ 0 then .error .invalidArgument
  else
    match OrderService.createOrder db orderId stamp req.customerId req.sku req.quantity
        req.amount with
    | .error e => .error (.internal e)
    | .ok db => .ok db

/-! ## What one call can do -/

theorem Store.createOrder_eq_ok {db db' : Db} {stamp : Stamp} {id customerId sku : String}
    {quantity : Int4} {amount : Float64} {status : Status} {ob : OutboxInsert}
    (h : Store.createOrder db stamp id customerId sku quantity amount status ob = .ok db') :
    hasNul sku = false ∧ ∃ u, uuidIn id = some u ∧
      db.orders.insert ⟨u, customerId, sku, quantity, amount, status⟩ = some db'.orders ∧
      db'.processed = db.processed ∧ insertOutbox stamp db.outbox ob = .ok db'.outbox := by
  unfold Store.createOrder at h
  split at h
  · simp at h
  next u hu =>
  split at h
  · simp at h
  next htext =>
  split at h
  · simp at h
  next orders ho =>
  split at h
  · simp at h
  next outbox hb =>
  rw [Except.ok.injEq] at h
  subst h
  simp only [Bool.or_eq_true, not_or, Bool.not_eq_true] at htext
  exact ⟨htext.2, u, hu, ho, rfl, hb⟩

/-- An order as CreateOrder accepts it : its quantity is positive, and its SKU can be stored. -/
structure Order.Accepted (o : Order) : Prop where
  positive : 0 < o.quantity.val
  text : hasNul o.sku = false

/-- A CreateOrder that succeeds adds one PENDING order and its event. -/
theorem createOrder_eq_ok {db db' : Db} {req : CreateOrderRequest} {orderId : String}
    {stamp : Stamp} (h : Server.createOrder db req orderId stamp = .ok db') :
    (0 < req.quantity.val ∧ hasNul req.sku = false) ∧ ∃ u, uuidIn orderId = some u ∧
      db.orders.insert ⟨u, req.customerId, req.sku, req.quantity, req.amount, .pending⟩ =
        some db'.orders ∧ db'.processed = db.processed ∧
      insertOutbox stamp db.outbox (orderCreatedEvent stamp orderId req.customerId req.sku
        req.quantity req.amount) = .ok db'.outbox := by
  unfold Server.createOrder at h
  split at h
  · simp at h
  next hreq =>
  split at h
  · simp at h
  next hok =>
  rw [Except.ok.injEq] at h
  subst h
  obtain ⟨hsku, hinserted⟩ := Store.createOrder_eq_ok hok
  exact ⟨⟨by omega, hsku⟩, hinserted⟩

theorem eventTx_of_none {cur : Status} {t : Trigger} (h : (apply cur t).2 = none) (stamp : Stamp)
    (sagaId : String) : eventTx t stamp sagaId cur = .ok ((apply cur t).1.next,
      if Cancels cur t then [orderCancelledEvent stamp sagaId] else [],
      (apply cur t).1.changed) := by
  have hemit : (apply cur t).1.emit.mapM (buildEmit stamp sagaId) =
      .ok (if Cancels cur t then [orderCancelledEvent stamp sagaId] else []) := by
    rw [apply_emit]
    by_cases hc : Cancels cur t
    · simp [hc, buildEmit, pure, Except.pure, bind, Except.bind]
    · simp [hc, pure, Except.pure]
  unfold eventTx
  split
  · next hap => simp [hap] at h
  · next hap => simp only [hap] at hemit ⊢; rw [hemit]

theorem eventTx_of_some {cur : Status} {t : Trigger} {e : TransitionError}
    (h : (apply cur t).2 = some e) (stamp : Stamp) (sagaId : String) :
    eventTx t stamp sagaId cur = .error (.transition e) := by
  unfold eventTx
  split
  · next hap => simp only [hap, Option.some.injEq] at h; rw [h]
  · next hap => simp [hap] at h

/-- The event `env` with trigger `t` is applied to the order `o` of its saga `u`, and
the tables become `db'`. -/
structure Applied (db : Db) (t : Trigger) (env : Envelope) (stamp : Stamp) (u : Uuid) (o : Order)
    (db' : Db) : Prop where
  text : hasNul env.idempotencyKey = false
  fresh : (env.idempotencyKey, consumerName) ∉ db.processed
  saga : uuidIn env.sagaId = some u
  order : db.orders.find? u = some o
  accepted : (apply o.status t).2 = none
  orders : db'.orders = setStatus db.orders u (apply o.status t).1.next
  processed : db'.processed = (env.idempotencyKey, consumerName) :: db.processed
  outbox : if Cancels o.status t
    then insertOutbox stamp db.outbox (orderCancelledEvent stamp env.sagaId) = .ok db'.outbox
    else db'.outbox = db.outbox

/-- The transition of the event `env` with trigger `t` ends in the error `e`. -/
structure Refused (db : Db) (t : Trigger) (env : Envelope) (e : TransitionError) : Prop where
  fresh : (env.idempotencyKey, consumerName) ∉ db.processed
  refused : ∃ u o, uuidIn env.sagaId = some u ∧ db.orders.find? u = some o ∧
    (apply o.status t).2 = some e

theorem store_handleEvent_of_refused {db : Db} {t : Trigger} {env : Envelope}
    {e : TransitionError} (htext : hasNul env.idempotencyKey = false) (h : Refused db t env e)
    (stamp : Stamp) :
    Store.handleEvent db stamp env.idempotencyKey consumerName env.sagaId
      (eventTx t stamp env.sagaId) = .error (.transition e) := by
  obtain ⟨hfresh, u, o, hu, ho, he⟩ := h
  simp only [Store.handleEvent, htext, markProcessed_eq_some.mpr ⟨hfresh, rfl⟩, hu, ho,
    eventTx_of_some he, Bool.false_eq_true, if_false]

/-- The transaction of an event that the state machine accepts. -/
theorem store_handleEvent_of_accepted {db : Db} {t : Trigger} {env : Envelope} {u : Uuid}
    {o : Order} (htext : hasNul env.idempotencyKey = false)
    (hfresh : (env.idempotencyKey, consumerName) ∉ db.processed)
    (hu : uuidIn env.sagaId = some u) (ho : db.orders.find? u = some o)
    (hok : (apply o.status t).2 = none) (stamp : Stamp) :
    (∃ e, Store.handleEvent db stamp env.idempotencyKey consumerName env.sagaId
        (eventTx t stamp env.sagaId) = .error (.sql e)) ∧
        Cancels o.status t ∧ db.outbox.find? stamp.rowId ≠ none ∨
      ∃ db', Applied db t env stamp u o db' ∧
        Store.handleEvent db stamp env.idempotencyKey consumerName env.sagaId
          (eventTx t stamp env.sagaId) = .ok (false, db') := by
  have hself : (apply o.status t).1.changed = false →
      db.orders = setStatus db.orders u (apply o.status t).1.next := by
    intro hc
    refine (Table.update_self ho ?_).symm
    rw [(apply_unchanged _ _ hc).1]
  simp only [Store.handleEvent, htext, markProcessed_eq_some.mpr ⟨hfresh, rfl⟩, hu, ho,
    eventTx_of_none hok, Bool.false_eq_true, if_false]
  by_cases hc : (apply o.status t).1.changed = false
  · have hcan : ¬Cancels o.status t := by
      rintro ⟨hne, hnext⟩
      exact hne ((apply_unchanged _ _ hc).1.symm.trans hnext)
    right
    refine ⟨{ db with processed := (env.idempotencyKey, consumerName) :: db.processed },
      ⟨htext, hfresh, hu, ho, hok, hself hc, rfl, ?_⟩, ?_⟩
    · simp [hcan]
    · simp [hc]
  · simp only [Bool.not_eq_false] at hc
    by_cases hcan : Cancels o.status t
    · cases hins : insertOutbox stamp db.outbox (orderCancelledEvent stamp env.sagaId) with
      | error e =>
        left
        refine ⟨⟨e, by simp [hc, hcan, hins, bind, Except.bind]⟩, hcan, fun hfree => ?_⟩
        obtain ⟨outbox, hins'⟩ := exists_insertOutbox hfree (orderCancelledEvent stamp env.sagaId)
        simp [hins'] at hins
      | ok outbox =>
        right
        refine ⟨⟨setStatus db.orders u (apply o.status t).1.next,
          (env.idempotencyKey, consumerName) :: db.processed, outbox⟩,
          ⟨htext, hfresh, hu, ho, hok, rfl, rfl, ?_⟩, ?_⟩
        · simp [hcan, hins]
        · simp [hc, hcan, hins, bind, Except.bind, pure, Except.pure]
    · right
      refine ⟨⟨setStatus db.orders u (apply o.status t).1.next,
        (env.idempotencyKey, consumerName) :: db.processed, db.outbox⟩,
        ⟨htext, hfresh, hu, ho, hok, rfl, rfl, ?_⟩, ?_⟩
      · simp [hcan]
      · simp [hc, hcan, pure, Except.pure]

/-- The transaction of `handleEvent`, and the store's answer to it. -/
theorem store_handleEvent_cases (db : Db) (t : Trigger) (env : Envelope) (stamp : Stamp) :
    (∃ e, Store.handleEvent db stamp env.idempotencyKey consumerName env.sagaId
        (eventTx t stamp env.sagaId) = .error (.sql e)) ∨
      (Store.handleEvent db stamp env.idempotencyKey consumerName env.sagaId
        (eventTx t stamp env.sagaId) = .ok (true, db) ∧
        (env.idempotencyKey, consumerName) ∈ db.processed) ∨
      (Store.handleEvent db stamp env.idempotencyKey consumerName env.sagaId
        (eventTx t stamp env.sagaId) = .error .notFound ∧
        ∃ u, uuidIn env.sagaId = some u ∧ db.orders.find? u = none) ∨
      (∃ e, Store.handleEvent db stamp env.idempotencyKey consumerName env.sagaId
        (eventTx t stamp env.sagaId) = .error (.transition e) ∧ Refused db t env e) ∨
      ∃ db', Store.handleEvent db stamp env.idempotencyKey consumerName env.sagaId
        (eventTx t stamp env.sagaId) = .ok (false, db') ∧
          ∃ u o, Applied db t env stamp u o db' := by
  cases htext : hasNul env.idempotencyKey with
  | true => exact Or.inl ⟨.invalidText, by simp [Store.handleEvent, htext]⟩
  | false =>
  by_cases hmem : (env.idempotencyKey, consumerName) ∈ db.processed
  · refine Or.inr (Or.inl ⟨?_, hmem⟩)
    simp [Store.handleEvent, htext, markProcessed_eq_none.mpr hmem]
  cases hu : uuidIn env.sagaId with
  | none =>
    refine Or.inl ⟨.invalidText, ?_⟩
    simp [Store.handleEvent, htext, markProcessed_eq_some.mpr ⟨hmem, rfl⟩, hu]
  | some u =>
  cases ho : db.orders.find? u with
  | none =>
    refine Or.inr (Or.inr (Or.inl ⟨?_, u, rfl, ho⟩))
    simp [Store.handleEvent, htext, markProcessed_eq_some.mpr ⟨hmem, rfl⟩, hu, ho]
  | some o =>
  cases hap : (apply o.status t).2 with
  | some e =>
    have href : Refused db t env e := ⟨hmem, u, o, hu, ho, hap⟩
    exact Or.inr (Or.inr (Or.inr (Or.inl ⟨e, store_handleEvent_of_refused htext href stamp, href⟩)))
  | none =>
    rcases store_handleEvent_of_accepted htext hmem hu ho hap stamp with ⟨h, -⟩ | ⟨db', h, h'⟩
    · exact Or.inl h
    · exact Or.inr (Or.inr (Or.inr (Or.inr ⟨db', h', u, o, h⟩)))

/-- Everything one delivery can do : it fails, or it finds its key processed, or it is
dropped, all with the tables as they were; or it is applied. -/
theorem handleEvent_cases (db : Db) {topic : Topic} {t : Trigger} (ht : topicTrigger topic = some t)
    (env : Envelope) (stamp : Stamp) :
    ((handleEvent db topic (some env) stamp).db = db ∧
        (handleEvent db topic (some env) stamp).err ≠ none) ∨
      ((handleEvent db topic (some env) stamp).db = db ∧
        (env.idempotencyKey, consumerName) ∈ db.processed) ∨
      ((handleEvent db topic (some env) stamp).db = db ∧
        ((∃ u, uuidIn env.sagaId = some u ∧ db.orders.find? u = none) ∨
          Refused db t env .invalidTransition)) ∨
      ((handleEvent db topic (some env) stamp).err = none ∧
        ∃ u o, Applied db t env stamp u o (handleEvent db topic (some env) stamp).db) := by
  unfold handleEvent
  simp only [ht]
  rcases store_handleEvent_cases db t env stamp with ⟨e, h⟩ | ⟨h, hmem⟩ | ⟨h, hu⟩ | ⟨e, h, href⟩ |
    ⟨db', h, hap⟩
  · exact Or.inl (by simp [h])
  · exact Or.inr (Or.inl (by simp [h, hmem]))
  · exact Or.inr (Or.inr (Or.inl (by simp [h, hu])))
  · cases e with
    | invalidTransition => exact Or.inr (Or.inr (Or.inl (by simp [h, href])))
    | prematureEvent => exact Or.inl (by simp [h])
  · refine Or.inr (Or.inr (Or.inr ?_))
    simp only [h]
    exact ⟨trivial, hap⟩

theorem enqueued_handleEvent (db : Db) (topic : Topic) (env : Envelope) (stamp : Stamp) :
    Enqueued db.outbox (handleEvent db topic (some env) stamp).db.outbox := by
  cases ht : topicTrigger topic with
  | none =>
    left
    simp [handleEvent, ht]
  | some t =>
    rcases handleEvent_cases db ht env stamp with ⟨hdb, -⟩ | ⟨hdb, -⟩ | ⟨hdb, -⟩ | ⟨-, u, o, ha⟩
    · exact Or.inl (by rw [hdb])
    · exact Or.inl (by rw [hdb])
    · exact Or.inl (by rw [hdb])
    · have hob := ha.outbox
      split_ifs at hob
      · exact enqueued_of_insertOutbox hob
      · exact Or.inl hob

/-- A parked event is one that the state machine calls premature. -/
theorem refused_of_err {db : Db} {topic : Topic} {t : Trigger} (ht : topicTrigger topic = some t)
    {env : Envelope} {stamp : Stamp}
    (h : (handleEvent db topic (some env) stamp).err = some (.transition .prematureEvent)) :
    Refused db t env .prematureEvent := by
  unfold handleEvent at h
  simp only [ht] at h
  rcases store_handleEvent_cases db t env stamp with ⟨e, h'⟩ | ⟨h', -⟩ | ⟨h', -⟩ | ⟨e, h', href⟩ |
    ⟨db', h', -⟩
  · simp [h'] at h
  · simp [h'] at h
  · simp [h'] at h
  · cases e with
    | invalidTransition => simp [h'] at h
    | prematureEvent => exact href
  · simp [h'] at h

/-- The invalid-transition branch is taken only on an event that the state machine
calls invalid. -/
theorem refused_of_store_error {db : Db} {t : Trigger} {env : Envelope} {stamp : Stamp}
    {e : TransitionError} (h : Store.handleEvent db stamp env.idempotencyKey consumerName env.sagaId
      (eventTx t stamp env.sagaId) = .error (.transition e)) : Refused db t env e := by
  rcases store_handleEvent_cases db t env stamp with ⟨e, h'⟩ | ⟨h', -⟩ | ⟨h', -⟩ | ⟨e', h', href⟩ |
    ⟨db', h', -⟩
  · simp [h'] at h
  · simp [h'] at h
  · simp [h'] at h
  · rw [h'] at h
    simp only [Except.error.injEq, Error.transition.injEq] at h
    exact h ▸ href
  · simp [h'] at h

/-- An accepted event is applied, when its outbox row, if it needs one, has a free id. -/
theorem handleEvent_of_accepted {db : Db} {topic : Topic} {t : Trigger}
    (ht : topicTrigger topic = some t) {env : Envelope} {u : Uuid} {o : Order} {stamp : Stamp}
    (htext : hasNul env.idempotencyKey = false)
    (hfresh : (env.idempotencyKey, consumerName) ∉ db.processed)
    (hu : uuidIn env.sagaId = some u) (ho : db.orders.find? u = some o)
    (hok : (apply o.status t).2 = none) (hrow : db.outbox.find? stamp.rowId = none) :
    (handleEvent db topic (some env) stamp).err = none ∧
      Applied db t env stamp u o (handleEvent db topic (some env) stamp).db := by
  rcases store_handleEvent_of_accepted htext hfresh hu ho hok stamp with ⟨-, -, h⟩ | ⟨db', h, h'⟩
  · exact absurd hrow h
  · unfold handleEvent
    simp only [ht, h']
    exact ⟨trivial, h⟩

end Choreography.OrderService
