import Choreography.Inventory
import Choreography.Order
import Choreography.Payment
import Choreography.Runs

/-!
# The composed system

The three services with their databases, the topics between them, and the one RPC.
A step is one transaction or one message : a client creates an order, a relay publishes
an outbox row or marks it, a consumer handles a record of a topic, and Payment's handler
of `order.created` goes through its call of ReserveStock. Nothing is in order or
happens once : a row may be published again, a record of the log may be handled at any
time and any number of times, and a request may be lost, or served after its caller gave
up. A relay may mark a row whose message never got to its topic, as Inventory's does when
its producer takes an empty queue for a success; that no relay does so is a hypothesis of
its own (`System.Acknowledged`).

A transaction that fails, or a step whose guard fails, leaves the system as it is. The
identifiers that a step draws are fresh (`System.Fresh`).
-/

namespace Choreography

open PaymentService (PyText)

/-! ## States -/

/-- Where Payment's handler is, after its transaction. -/
inductive Stage
  /-- The payment is committed, and ReserveStock is not called yet. -/
  | reserve (req : ReserveStockRequest)
  /-- ReserveStock is called, and has not returned. -/
  | calling (req : ReserveStockRequest)
  /-- The handler has returned, and the offset is not committed. -/
  | finished
  deriving DecidableEq

/-- A message that Payment's consumer is handling. -/
structure Handler where
  record : Record
  stage : Stage
  deriving DecidableEq

/-- The three databases, the topics, and what is on its way between the services. -/
structure System where
  order : OrderService.Db
  payment : PaymentService.Db
  inventory : InventoryService.Db
  /-- The messages on all topics. -/
  log : List Record
  /-- The messages that a service has handled, with the offset committed. -/
  handled : List (Service × Record)
  /-- Payment's consumer handles one message at a time. -/
  working : Option Handler
  /-- The ReserveStock requests on their way, and those that are answered. -/
  requests : List ReserveStockRequest
  replies : List ReserveStockRequest

namespace System

/-- A new deployment with the given stock. -/
def init (stock : InventoryService.Stock) : System :=
  ⟨.empty, .empty, .ofStock stock, [], [], none, [], []⟩

def outbox (s : System) : Service → Outbox
  | .order => s.order.outbox
  | .payment => s.payment.outbox
  | .inventory => s.inventory.outbox

def setOutbox (s : System) (svc : Service) (outbox : Outbox) : System :=
  match svc with
  | .order => { s with order := { s.order with outbox := outbox } }
  | .payment => { s with payment := { s.payment with outbox := outbox } }
  | .inventory => { s with inventory := { s.inventory with outbox := outbox } }

@[simp] theorem log_setOutbox (s : System) (svc : Service) (ob : Outbox) :
    (s.setOutbox svc ob).log = s.log := by
  cases svc <;> rfl

@[simp] theorem working_setOutbox (s : System) (svc : Service) (ob : Outbox) :
    (s.setOutbox svc ob).working = s.working := by
  cases svc <;> rfl

@[simp] theorem requests_setOutbox (s : System) (svc : Service) (ob : Outbox) :
    (s.setOutbox svc ob).requests = s.requests := by
  cases svc <;> rfl

theorem outbox_setOutbox (s : System) (svc : Service) (ob : Outbox) (svc' : Service) :
    (s.setOutbox svc ob).outbox svc' = if svc' = svc then ob else s.outbox svc' := by
  cases svc <;> cases svc' <;> rfl

/-- The idempotency keys of all events. -/
def keys (s : System) : List String :=
  (s.order.events ++ s.payment.events ++ s.inventory.events).map Record.idem

/-- The key of the stamp is new, and so is its row id in the outbox of the service. -/
def Fresh (s : System) (svc : Service) (stamp : Stamp) : Prop :=
  stamp.idempotencyKey ∉ s.keys ∧ (s.outbox svc).find? stamp.rowId = none

instance (s : System) (svc : Service) (stamp : Stamp) : Decidable (s.Fresh svc stamp) :=
  inferInstanceAs (Decidable (_ ∧ _))

end System

/-! ## Steps -/

inductive Label
  /-- A client calls CreateOrder. -/
  | createOrder (req : OrderService.CreateOrderRequest) (orderId : String) (stamp : Stamp)
  /-- A relay publishes a row, perhaps not for the first time. -/
  | publish (svc : Service) (id : Uuid)
  /-- A relay marks a row as published. -/
  | markPublished (svc : Service) (id : Uuid)
  /-- A relay counts a failed attempt. -/
  | markFailed (svc : Service) (id : Uuid)
  /-- Order handles a message, and commits its offset if `acked`. -/
  | orderHandle (r : Record) (stamp : Stamp) (acked : Bool)
  /-- Payment handles a message up to the end of its transaction. -/
  | paymentHandle (r : Record) (forceFailure : Bool) (stamp : Stamp)
  /-- Payment calls ReserveStock. -/
  | call
  /-- Inventory serves a request. -/
  | serve (req : ReserveStockRequest) (newId : Uuid) (stamp : Stamp)
  /-- A request is lost. -/
  | drop (req : ReserveStockRequest)
  /-- Payment's call returns. -/
  | reply
  /-- Payment's call ends in a transport error. -/
  | fail
  /-- Payment commits the offset of the message it has handled. -/
  | commitOffset
  /-- Payment crashes; what it was handling will be redelivered. -/
  | crash
  /-- Inventory handles a message, and commits its offset if `acked`. -/
  | inventoryHandle (r : Record) (stamp : Stamp) (acked : Bool)

/-- The service whose database a step writes. -/
def Label.writes : Label → Option Service
  | .createOrder .. | .orderHandle .. => some .order
  | .paymentHandle .. => some .payment
  | .serve .. | .inventoryHandle .. => some .inventory
  | .markPublished svc _ | .markFailed svc _ => some svc
  | _ => none

/-- The service whose handler, or whose endpoint, a step runs. -/
def Label.commits : Label → Option Service
  | .createOrder .. | .orderHandle .. => some .order
  | .paymentHandle .. => some .payment
  | .serve .. | .inventoryHandle .. => some .inventory
  | _ => none

/-- The step is one of Payment's handler, or of a call of ReserveStock. -/
def Label.calls : Label → Bool
  | .paymentHandle .. | .call | .serve .. | .drop _ | .reply | .fail | .commitOffset
  | .crash => true
  | _ => false

namespace System

/-- What Payment's handler does after its transaction. -/
def goOn (r : Record) : PaymentService.Next → Option Handler
  | .done => some ⟨r, .finished⟩
  | .reserve req => some ⟨r, .reserve req⟩
  | .raise => none

/-- One step of the system. A transaction is committed as a whole, or not at all. -/
def step (py : PyText) (s : System) : Label → System
  | .createOrder req orderId stamp =>
    if s.Fresh .order stamp then
      match OrderService.Server.createOrder s.order req orderId stamp with
      | .ok db => { s with order := db }
      | .error _ => s
    else s
  | .publish svc id =>
    match (s.outbox svc).find? id with
    | some row => { s with log := s.log ++ [row.record] }
    | none => s
  | .markPublished svc id => s.setOutbox svc (Choreography.markPublished (s.outbox svc) id)
  | .markFailed svc id => s.setOutbox svc (Choreography.markFailed (s.outbox svc) id)
  | .orderHandle r stamp acked =>
    if r ∈ s.log ∧ r.topic ∈ OrderService.consumedTopics ∧ s.Fresh .order stamp then
      let h := OrderService.handleEvent s.order r.topic (some r.value) stamp
      { s with
        order := h.db
        handled := if h.err = none ∧ acked then (.order, r) :: s.handled else s.handled }
    else s
  | .paymentHandle r forceFailure stamp =>
    if r ∈ s.log ∧ r.topic ∈ PaymentService.consumedTopics ∧ s.working = none ∧
        s.Fresh .payment stamp then
      match PaymentService.handle py forceFailure s.payment r.topic r.value stamp with
      | .ok h => { s with payment := h.db, working := goOn r h.next }
      | .error _ => s
    else s
  | .call =>
    match s.working with
    | some ⟨r, .reserve req⟩ =>
      { s with working := some ⟨r, .calling req⟩, requests := req :: s.requests }
    | _ => s
  | .serve req newId stamp =>
    if req ∈ s.requests ∧ s.Fresh .inventory stamp then
      match InventoryService.Server.reserveStock s.inventory newId stamp req with
      | .ok (_, db) =>
        { s with inventory := db, requests := s.requests.erase req, replies := req :: s.replies }
      | .error _ => { s with requests := s.requests.erase req }
    else s
  | .drop req => { s with requests := s.requests.erase req }
  | .reply =>
    match s.working with
    | some ⟨r, .calling req⟩ =>
      if req ∈ s.replies then { s with working := some ⟨r, .finished⟩ } else s
    | _ => s
  | .fail =>
    match s.working with
    | some ⟨r, .calling _⟩ => { s with working := some ⟨r, .finished⟩ }
    | _ => s
  | .commitOffset =>
    match s.working with
    | some ⟨r, .finished⟩ => { s with working := none, handled := (.payment, r) :: s.handled }
    | _ => s
  | .crash => { s with working := none }
  | .inventoryHandle r stamp acked =>
    if r ∈ s.log ∧ r.topic ∈ InventoryService.consumedTopics ∧ s.Fresh .inventory stamp then
      match InventoryService.handleOrderCancelled s.inventory stamp r.value r.traceparent with
      | .ok (_, db) =>
        { s with
          inventory := db
          handled := if acked then (.inventory, r) :: s.handled else s.handled }
      | .error _ => s
    else s

/-- A row is marked as published only once its record is on its topic. -/
def Acknowledged (s : System) : Label → Prop
  | .markPublished svc id => ∀ row, (s.outbox svc).find? id = some row → row.record ∈ s.log
  | _ => True

/-- Every row that is marked as published is on its topic. -/
def Relayed (s : System) : Prop :=
  ∀ svc, ∀ row ∈ (s.outbox svc).rows, row.status = .published → row.record ∈ s.log

instance (s : System) : Decidable s.Relayed :=
  inferInstanceAs (Decidable (∀ svc, ∀ row ∈ (s.outbox svc).rows, _ → _))

/-- A step writes the database of one service at most. -/
theorem step_frame (py : PyText) (s : System) (l : Label) :
    (l.writes ≠ some .order → (step py s l).order = s.order) ∧
      (l.writes ≠ some .payment → (step py s l).payment = s.payment) ∧
      (l.writes ≠ some .inventory → (step py s l).inventory = s.inventory) := by
  have hset : ∀ (svc : Service) (ob : Outbox),
      (some svc ≠ some .order → (s.setOutbox svc ob).order = s.order) ∧
        (some svc ≠ some .payment → (s.setOutbox svc ob).payment = s.payment) ∧
        (some svc ≠ some .inventory → (s.setOutbox svc ob).inventory = s.inventory) := by
    intro svc ob
    cases svc <;> simp [setOutbox]
  cases l with
  | markPublished svc id => exact hset svc _
  | markFailed svc id => exact hset svc _
  | _ =>
    refine ⟨fun h => ?_, fun h => ?_, fun h => ?_⟩ <;> first
    | exact absurd rfl h
    | simp only [step]
      repeat' split
      all_goals rfl

/-- Other steps leave Payment's handler and its call alone. -/
theorem step_calls (py : PyText) (s : System) {l : Label} (hl : l.calls = false) :
    (step py s l).working = s.working ∧ (step py s l).requests = s.requests := by
  cases l with
  | markPublished svc id => simp [step]
  | markFailed svc id => simp [step]
  | _ =>
    first
    | exact Bool.noConfusion hl
    | simp only [step]
      repeat' split
      all_goals exact ⟨rfl, rfl⟩

/-- Topics are append-only. -/
theorem log_subset_step (py : PyText) (s : System) (l : Label) : s.log ⊆ (step py s l).log := by
  intro r hr
  cases l with
  | publish svc id =>
    simp only [step]
    split
    · exact List.mem_append_left _ hr
    · exact hr
  | markPublished svc id => rwa [step, log_setOutbox]
  | markFailed svc id => rwa [step, log_setOutbox]
  | _ =>
    simp only [step]
    repeat' split
    all_goals exact hr

end System

end Choreography
