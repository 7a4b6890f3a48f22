import Choreography.Consumers
import Choreography.RelayRuns
import Choreography.System

/-!
# The deployed processes

The three processes as they run, each with its relay and its consumer loop, composed from
the models of the parts : a relay takes the exchanges of `Relays.step` on the outbox of its
service, a consumer loop the events of `Kafka.Loop.step` or `Kafka.Order.step` on the
partitions of its topics, and how a handler call ends is what the handler of the service
does to its database. The environment breaks connections, before or after a commit reaches
the database, delivers late what a producer has queued, loses requests, and kills processes
at any time. Inventory's producer may report a message as sent that the broker has refused,
since it takes an empty queue for a success.

A new process resumes from the committed offsets of the one that has ended.
-/

namespace Choreography

open PaymentService (PyText)
open Kafka (Partition)

/-! ## States -/

/-- What happens to the database connection of a handler's transaction. -/
inductive Connection
  | up
  /-- It breaks before the commit. -/
  | lost
  /-- It breaks after the commit, and the handler gets an error all the same. -/
  | lostAfterCommit
  deriving DecidableEq

/-- The transaction is committed. -/
def Connection.commits : Connection → Bool
  | .lost => false
  | .up | .lostAfterCommit => true

/-- A fetch that Order's loop is dispatching. -/
structure Fetching where
  /-- The logs at the poll. -/
  logs : Kafka.Logs
  fetch : Kafka.Order.Fetch
  /-- The records that are not dispatched yet. -/
  rest : List Kafka.Order.Polled
  /-- Where the handler has returned nil. -/
  completed : List (Partition × ℕ)
  /-- The handler has returned an error. -/
  failed : Bool

def Fetching.handles (f : Fetching) (p : Partition) (n : ℕ) : Bool := (p, n) ∈ f.completed

/-- A message that Payment's loop is at, after the transaction of its handler. -/
structure Worker where
  partition : Partition
  handler : Handler
  deriving DecidableEq

/-- How the processes are set up. -/
structure Setup where
  relay : Service → Relay
  /-- The partition that the producer of a service picks for a key. -/
  partition : Service → String → ℕ
  /-- The text of an envelope. -/
  body : Envelope → ByteArray

/-- A record as it is in the log. -/
def Setup.message (setup : Setup) (r : Record) : Kafka.Message :=
  ⟨[(Kafka.traceparentHeader, some r.traceparent.toUTF8)], setup.body r.value⟩

/-- The databases, the topics, and what the processes of the three services hold in memory. -/
structure Deployment where
  order : OrderService.Db
  payment : PaymentService.Db
  inventory : InventoryService.Db
  topics : Partition → List Record
  /-- The rows whose message a relay takes for acknowledged. -/
  acked : Service → List OutboxRow
  /-- The rows whose publish has failed, with the message still in the producer's queue. -/
  queued : Service → List OutboxRow
  drain : Service → Option Drain
  orderClient : Kafka.Order.Client
  fetching : Option Fetching
  paymentClient : Kafka.Client
  working : Option Worker
  inventoryClient : Kafka.Client
  /-- The ReserveStock requests on their way, and those that are answered. -/
  requests : List ReserveStockRequest
  replies : List ReserveStockRequest

/-- What a process or its environment does next. -/
inductive Action
  | createOrder (req : OrderService.CreateOrderRequest) (orderId : String) (stamp : Stamp)
    (conn : Connection)
  /-- The relay's ticker fires. -/
  | startDrain (svc : Service)
  | exchange (svc : Service) (choice : Choice)
  /-- Inventory's relay is told that a message was sent which the broker has refused. -/
  | loseMessage
  /-- A message that a failed publish has left in the queue is delivered. -/
  | deliverLate (svc : Service) (row : OutboxRow)
  /-- Order's loop polls. -/
  | pollFetches (fetch : Kafka.Order.Fetch)
  /-- Order's loop dispatches the next record. -/
  | handleEvent (stamp : Stamp) (conn : Connection)
  /-- Order's loop commits the fetch, or rewinds it. -/
  | endFetch (commitOk : Bool)
  /-- Payment's loop polls a record, and its handler gets to the end of its transaction. -/
  | paymentMessage (p : Partition) (forceFailure : Bool) (stamp : Stamp) (conn : Connection)
  | call
  | serve (req : ReserveStockRequest) (newId : Uuid) (stamp : Stamp) (conn : Connection)
  | dropRequest (req : ReserveStockRequest)
  | reply
  | fail
  /-- Payment's handler has returned, and its loop commits the offset. -/
  | endMessage (commit : Kafka.Commit)
  /-- Inventory's loop polls a record, handles it, and commits the offset. -/
  | inventoryMessage (p : Partition) (stamp : Stamp) (conn : Connection) (commit : Kafka.Commit)
  /-- A process is killed. -/
  | crash (svc : Service)
  /-- A new process takes over from one that has ended. -/
  | restart (svc : Service)

namespace Deployment

/-- New processes over empty topics, with the given stock. -/
def init (stock : InventoryService.Stock) : Deployment where
  order := .empty
  payment := .empty
  inventory := .ofStock stock
  topics _ := []
  acked _ := []
  queued _ := []
  drain _ := none
  orderClient := .init
  fetching := none
  paymentClient := .init
  working := none
  inventoryClient := .init
  requests := []
  replies := []

/-- The databases alone. -/
def databases (d : Deployment) : System :=
  ⟨d.order, d.payment, d.inventory, [], [], none, [], []⟩

def outbox (d : Deployment) : Service → Outbox := d.databases.outbox

def Fresh (d : Deployment) (svc : Service) (stamp : Stamp) : Prop := d.databases.Fresh svc stamp

instance (d : Deployment) (svc : Service) (stamp : Stamp) : Decidable (d.Fresh svc stamp) :=
  inferInstanceAs (Decidable (d.databases.Fresh svc stamp))

/-- The handler calls of a service. -/
def calls (d : Deployment) : Service → List Kafka.Call
  | .order => d.orderClient.calls
  | .payment => d.paymentClient.calls
  | .inventory => d.inventoryClient.calls

variable (py : PyText) (setup : Setup)

def logs (d : Deployment) : Kafka.Logs := fun p => (d.topics p).map setup.message

/-! ## The relays -/

/-- The relay of a service, with the outbox. -/
def relays (d : Deployment) (svc : Service) : Relays Unit :=
  ⟨d.outbox svc, d.acked svc, fun _ => d.drain svc⟩

def setRelays (d : Deployment) (svc : Service) (w : Relays Unit) : Deployment :=
  { d with
    order := (d.databases.setOutbox svc w.outbox).order
    payment := (d.databases.setOutbox svc w.outbox).payment
    inventory := (d.databases.setOutbox svc w.outbox).inventory
    acked := Function.update d.acked svc w.acked
    drain := Function.update d.drain svc (w.drain ()) }

/-- The row that a relay is about to publish. -/
def publishing (d : Deployment) (svc : Service) : Option OutboxRow :=
  match d.drain svc with
  | some ⟨.call (.publish row) _, _, _⟩ => some row
  | _ => none

/-- The broker appends a message to its partition. -/
def append (d : Deployment) (svc : Service) (row : OutboxRow) : Deployment :=
  { d with
    topics := Function.update d.topics (row.topic, setup.partition svc row.aggregateId)
      (d.topics (row.topic, setup.partition svc row.aggregateId) ++ [row.record]) }

/-- Order's client gives a failed message up; the other two keep it in their queue. -/
def enqueue (d : Deployment) (svc : Service) (row : OutboxRow) : Deployment :=
  if svc = .order then d
  else { d with queued := Function.update d.queued svc (row :: d.queued svc) }

/-! ## Steps -/

/-- Payment's loop goes on to the next record, without a commit. -/
def skip (d : Deployment) (p : Partition) : Deployment :=
  { d with
    paymentClient := Kafka.Payment.KafkaConsumer.run.step (d.logs setup) d.paymentClient
      (.message p .failed .done) }

/-- A process is gone with its drain, its queue and the message that it was handling. -/
def kill (d : Deployment) : Service → Deployment
  | .order =>
    { d with
      drain := Function.update d.drain .order none
      orderClient :=
        match d.fetching with
        | some f => Kafka.Order.step f.logs d.orderClient (.killed f.fetch f.handles
            ((d.orderClient.fetched f.logs f.fetch).length - f.rest.length))
        | none => Kafka.Order.step (d.logs setup) d.orderClient .stop
      fetching := none }
  | .payment =>
    { d with
      drain := Function.update d.drain .payment none
      queued := Function.update d.queued .payment []
      paymentClient := Kafka.Payment.KafkaConsumer.run.step (d.logs setup) d.paymentClient
        (match d.working with
        | some w => .message w.partition .killed .killed
        | none => .stop)
      working := none }
  | .inventory =>
    { d with
      drain := Function.update d.drain .inventory none
      queued := Function.update d.queued .inventory []
      inventoryClient := Kafka.Inventory.Consumer.run.step (d.logs setup) d.inventoryClient .stop }

/-- Order's loop dispatches the record `r` of a fetch. -/
def handleRecord (d : Deployment) (f : Fetching) (q : Kafka.Order.Polled)
    (rest : List Kafka.Order.Polled) (r : Record) (stamp : Stamp) (conn : Connection) :
    Deployment :=
  let h := OrderService.handleEvent d.order r.topic (some r.value) stamp
  let ok := decide (h.err = none ∧ conn = .up)
  { d with
    order := if conn.commits then h.db else d.order
    fetching := some { f with
      rest := rest
      completed := if ok then (q.partition, q.offset) :: f.completed else f.completed
      failed := !ok } }

/-- Payment's handler on the record `r` of a partition, up to the end of its transaction. -/
def payRecord (d : Deployment) (p : Partition) (r : Record) (forceFailure : Bool) (stamp : Stamp)
    (conn : Connection) : Deployment :=
  match PaymentService.handle py forceFailure d.payment r.topic r.value stamp with
  | .ok h =>
    match conn with
    | .up =>
      match System.goOn r h.next with
      | some handler => { d with payment := h.db, working := some ⟨p, handler⟩ }
      | none => { d with payment := h.db }.skip setup p
    | .lost => d.skip setup p
    | .lostAfterCommit => { d with payment := h.db }.skip setup p
  | .error _ => d.skip setup p

/-- Inventory's loop goes on after a handler call. -/
def next (d : Deployment) (p : Partition) (outcome : Kafka.Outcome) (commit : Kafka.Commit) :
    Deployment :=
  { d with
    inventoryClient := Kafka.Inventory.Consumer.run.step (d.logs setup) d.inventoryClient
      (.message p outcome commit) }

/-- Inventory's handler on the record `r` of a partition, and the commit of its offset. -/
def releaseRecord (d : Deployment) (p : Partition) (r : Record) (stamp : Stamp)
    (conn : Connection) (commit : Kafka.Commit) : Deployment :=
  match InventoryService.handleOrderCancelled d.inventory stamp r.value r.traceparent with
  | .ok (_, db) =>
    match conn with
    | .up => { d with inventory := db }.next setup p .completed commit
    | .lost => d.next setup p .failed commit
    | .lostAfterCommit => { d with inventory := db }.next setup p .failed commit
  | .error _ => d.next setup p .failed commit

/-- One step of the processes. -/
def step (d : Deployment) : Action → Deployment
  | .createOrder req orderId stamp conn =>
    if d.Fresh .order stamp ∧ conn.commits = true then
      match OrderService.Server.createOrder d.order req orderId stamp with
      | .ok db => { d with order := db }
      | .error _ => d
    else d
  | .startDrain svc =>
    d.setRelays svc ((d.relays svc).step svc (fun _ => setup.relay svc) (.start ()))
  | .exchange svc c =>
    let d' := d.setRelays svc ((d.relays svc).step svc (fun _ => setup.relay svc) (.act () c))
    match d.publishing svc with
    | some row => if c.ok || c.applied then d'.append setup svc row else d'.enqueue svc row
    | none => d'
  | .loseMessage =>
    match d.publishing .inventory with
    | some _ =>
      d.setRelays .inventory ((d.relays .inventory).step .inventory
        (fun _ => setup.relay .inventory) (.act () ⟨true, false, []⟩))
    | none => d
  | .deliverLate svc row =>
    if row ∈ d.queued svc then
      { d.append setup svc row with
        queued := Function.update d.queued svc ((d.queued svc).erase row) }
    else d
  | .pollFetches fetch =>
    if d.orderClient.running = true ∧ d.fetching.isNone = true ∧ fetch.partitions.Nodup ∧
        ∀ p ∈ fetch.partitions, p.1 ∈ OrderService.consumedTopics then
      { d with
        fetching := some ⟨d.logs setup, fetch, d.orderClient.fetched (d.logs setup) fetch, [],
          false⟩ }
    else d
  | .handleEvent stamp conn =>
    match d.fetching with
    | some f =>
      match f.failed, f.rest with
      | false, q :: rest =>
        match (d.topics q.partition)[q.offset]? with
        | some r => if d.Fresh .order stamp then d.handleRecord f q rest r stamp conn else d
        | none => d
      | _, _ => d
    | none => d
  | .endFetch commitOk =>
    match d.fetching with
    | some f =>
      if f.rest.isEmpty || f.failed then
        { d with
          orderClient := Kafka.Order.step f.logs d.orderClient
            (.iteration f.fetch f.handles commitOk)
          fetching := none }
      else d
    | none => d
  | .paymentMessage p forceFailure stamp conn =>
    if d.paymentClient.running = true ∧ d.working = none ∧
        p.1 ∈ PaymentService.consumedTopics ∧ d.Fresh .payment stamp then
      match (d.topics p)[d.paymentClient.position p]? with
      | some r =>
        -- a header that is not UTF-8 raises out of the loop, before the handler is called
        if (Kafka.Payment.KafkaConsumer.run.traceparent (setup.message r).headers).isSome then
          d.payRecord py setup p r forceFailure stamp conn
        else d.skip setup p
      | none => d
    else d
  | .call =>
    match d.working with
    | some ⟨p, r, .reserve req⟩ =>
      { d with working := some ⟨p, r, .calling req⟩, requests := req :: d.requests }
    | _ => d
  | .serve req newId stamp conn =>
    if req ∈ d.requests ∧ d.Fresh .inventory stamp then
      match InventoryService.Server.reserveStock d.inventory newId stamp req with
      | .ok (_, db) =>
        match conn with
        | .up =>
          { d with
            inventory := db
            requests := d.requests.erase req
            replies := req :: d.replies }
        | .lost => { d with requests := d.requests.erase req }
        | .lostAfterCommit => { d with inventory := db, requests := d.requests.erase req }
      | .error _ => { d with requests := d.requests.erase req }
    else d
  | .dropRequest req => { d with requests := d.requests.erase req }
  | .reply =>
    match d.working with
    | some ⟨p, r, .calling req⟩ =>
      if req ∈ d.replies then { d with working := some ⟨p, r, .finished⟩ } else d
    | _ => d
  | .fail =>
    match d.working with
    | some ⟨p, r, .calling _⟩ => { d with working := some ⟨p, r, .finished⟩ }
    | _ => d
  | .endMessage commit =>
    match d.working with
    | some ⟨p, _, .finished⟩ =>
      { d with
        paymentClient := Kafka.Payment.KafkaConsumer.run.step (d.logs setup) d.paymentClient
          (.message p .completed commit)
        working := none }
    | _ => d
  | .inventoryMessage p stamp conn commit =>
    if d.inventoryClient.running = true ∧ p.1 ∈ InventoryService.consumedTopics ∧
        d.Fresh .inventory stamp then
      match (d.topics p)[d.inventoryClient.position p]? with
      | some r => d.releaseRecord setup p r stamp conn commit
      | none => d
    else d
  | .crash svc => d.kill setup svc
  | .restart .order =>
    if d.orderClient.running || d.fetching.isSome then d
    else { d with orderClient := Kafka.Order.step (d.logs setup) d.orderClient .restart }
  | .restart .payment =>
    if d.paymentClient.running || d.working.isSome then d
    else
      { d with
        paymentClient := Kafka.Payment.KafkaConsumer.run.step (d.logs setup) d.paymentClient
          .restart }
  | .restart .inventory =>
    if d.inventoryClient.running then d
    else
      { d with
        inventoryClient := Kafka.Inventory.Consumer.run.step (d.logs setup) d.inventoryClient
          .restart }

end Deployment

end Choreography
