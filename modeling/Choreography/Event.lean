import Choreography.Postgres

/-!
# Events and the transactional outbox

The eight topics, the JSON envelope that every message carries, and the outbox table
that each service writes its events to. An envelope's `data` is a JSON object, built
by one service and read by another. `insertOutbox` adds a PENDING row in the
transaction of a business write; the relay reads PENDING rows, sends each as a
`Record` on its topic, and then calls `markPublished` or `markFailed`. The requests of
the one synchronous leg, the RPCs of Inventory, are here too.

Every event draws fresh identifiers, the `Stamp` : the envelope's `eventId` and
`idempotencyKey`, the outbox row's id, the clock, and the trace context that the
tracer injects.
-/

namespace Choreography

/-! ## Services and topics -/

inductive Service
  | order
  | payment
  | inventory
  deriving DecidableEq, Repr

instance : Fintype Service := ⟨{.order, .payment, .inventory}, fun svc => by cases svc <;> simp⟩

/-- The topics, with Kafka's names `order.created` to `inventory.released`. -/
inductive Topic
  | orderCreated
  | orderCancelled
  | paymentProcessed
  | paymentFailed
  | paymentRefunded
  | inventoryReserved
  | inventoryReservationFailed
  | inventoryReleased
  deriving DecidableEq, Repr

/-- The service that publishes the topic. -/
def Topic.service : Topic → Service
  | .orderCreated | .orderCancelled => .order
  | .paymentProcessed | .paymentFailed | .paymentRefunded => .payment
  | .inventoryReserved | .inventoryReservationFailed | .inventoryReleased => .inventory

/-! ## JSON -/

inductive Json
  | null
  | bool (b : Bool)
  | num (q : ℚ)
  /-- NaN or an infinity, which only Python's parser accepts. -/
  | nonFinite
  | str (s : String)
  | arr (items : List Json)
  | obj (fields : List (String × Json))

namespace Json

mutual

def decEq : (a b : Json) → Decidable (a = b)
  | .null, .null => isTrue rfl
  | .bool a, .bool b => decidable_of_iff (a = b) (by simp)
  | .num a, .num b => decidable_of_iff (a = b) (by simp)
  | .nonFinite, .nonFinite => isTrue rfl
  | .str a, .str b => decidable_of_iff (a = b) (by simp)
  | .arr a, .arr b => @decidable_of_iff _ (a = b) (by simp) (decEqItems a b)
  | .obj a, .obj b => @decidable_of_iff _ (a = b) (by simp) (decEqFields a b)
  | .null, .bool _ | .null, .num _ | .null, .nonFinite | .null, .str _ | .null, .arr _
  | .null, .obj _ | .bool _, .null | .bool _, .num _ | .bool _, .nonFinite | .bool _, .str _
  | .bool _, .arr _ | .bool _, .obj _ | .num _, .null | .num _, .bool _ | .num _, .nonFinite
  | .num _, .str _ | .num _, .arr _ | .num _, .obj _ | .nonFinite, .null | .nonFinite, .bool _
  | .nonFinite, .num _ | .nonFinite, .str _ | .nonFinite, .arr _ | .nonFinite, .obj _
  | .str _, .null | .str _, .bool _ | .str _, .num _ | .str _, .nonFinite | .str _, .arr _
  | .str _, .obj _ | .arr _, .null | .arr _, .bool _ | .arr _, .num _ | .arr _, .nonFinite
  | .arr _, .str _ | .arr _, .obj _ | .obj _, .null | .obj _, .bool _ | .obj _, .num _
  | .obj _, .nonFinite | .obj _, .str _ | .obj _, .arr _ =>
    isFalse (by simp)

def decEqItems : (a b : List Json) → Decidable (a = b)
  | [], [] => isTrue rfl
  | [], _ :: _ | _ :: _, [] => isFalse (by simp)
  | a :: as, b :: bs =>
    match decEq a b, decEqItems as bs with
    | isTrue h, isTrue hs => isTrue (by rw [h, hs])
    | isFalse h, _ => isFalse fun e => h (List.cons.inj e).1
    | _, isFalse h => isFalse fun e => h (List.cons.inj e).2

def decEqFields : (a b : List (String × Json)) → Decidable (a = b)
  | [], [] => isTrue rfl
  | [], _ :: _ | _ :: _, [] => isFalse (by simp)
  | (k, a) :: as, (l, b) :: bs =>
    match decEq a b, decEqFields as bs with
    | isTrue h, isTrue hs => decidable_of_iff (k = l) (by simp [h, hs])
    | isFalse h, _ => isFalse fun e => h (Prod.mk.inj (List.cons.inj e).1).2
    | _, isFalse h => isFalse fun e => h (List.cons.inj e).2

end

instance : DecidableEq Json := decEq

/-- The field `key` of an object. -/
def field? (key : String) (fields : List (String × Json)) : Option Json :=
  (fields.find? fun f => f.1 = key).map Prod.snd

mutual

/-- A text or a key of the value has a NUL, which JSON can write and JSONB refuses. -/
def holdsNul : Json → Bool
  | .str s => hasNul s
  | .arr items => itemsHoldNul items
  | .obj fields => fieldsHoldNul fields
  | .null | .bool _ | .num _ | .nonFinite => false

def itemsHoldNul : List Json → Bool
  | [] => false
  | item :: items => item.holdsNul || itemsHoldNul items

def fieldsHoldNul : List (String × Json) → Bool
  | [] => false
  | (key, value) :: fields => hasNul key || value.holdsNul || fieldsHoldNul fields

end

end Json

/-! ## Numbers -/

/-- The number rounds to a finite double. -/
def FitsDouble (q : ℚ) : Prop := q.num.natAbs < (2 ^ 1024 - 2 ^ 970) * q.den

instance : DecidablePred FitsDouble := fun _ => inferInstanceAs (Decidable (_ < _))

/-- A finite `float64`, of whose format only the range matters. -/
structure Float64 where
  val : ℚ
  fits : FitsDouble val
  deriving DecidableEq

theorem fitsDouble_natCast {n : ℕ} (h : n < 2 ^ 53) : FitsDouble n := by
  have hmax : 2 ^ 53 < 2 ^ 1024 - 2 ^ 970 := by decide +kernel
  rw [FitsDouble, Rat.num_natCast, Rat.den_natCast, Int.natAbs_natCast, mul_one]
  exact h.trans hmax

/-- A literal. -/
def Float64.lit (n : ℕ) (h : decide (n < 2 ^ 53) = true := by exact Eq.refl true) : Float64 :=
  ⟨n, fitsDouble_natCast (of_decide_eq_true h)⟩

/-! ## Envelopes -/

/-- The JSON envelope of every message. -/
structure Envelope where
  eventId : String
  eventType : String
  schemaVersion : ℤ
  occurredAt : String
  sagaId : String
  idempotencyKey : String
  traceparent : String
  data : Json
  deriving DecidableEq

/-- A text of the envelope has a NUL. -/
def Envelope.holdsNul (e : Envelope) : Bool :=
  hasNul e.eventId || hasNul e.eventType || hasNul e.occurredAt || hasNul e.sagaId ||
    hasNul e.idempotencyKey || hasNul e.traceparent || e.data.holdsNul

def schemaVersion : ℤ := 1

/-- What a service draws when it builds an event and inserts it. -/
structure Stamp where
  eventId : String
  idempotencyKey : String
  /-- The clock, as the envelope's text and as the row's `created_at`. -/
  occurredAt : String
  createdAt : ℕ
  /-- The outbox row's `gen_random_uuid()`. -/
  rowId : Uuid
  /-- The trace context that the tracer injects. -/
  traceparent : String
  /-- Ids, timestamps and trace contexts are printed without a NUL. -/
  text : ∀ s ∈ [eventId, idempotencyKey, occurredAt, traceparent], hasNul s = false
  deriving DecidableEq

theorem Stamp.hasNul_eventId (stamp : Stamp) : hasNul stamp.eventId = false :=
  stamp.text _ (by simp)

theorem Stamp.hasNul_idempotencyKey (stamp : Stamp) : hasNul stamp.idempotencyKey = false :=
  stamp.text _ (by simp)

theorem Stamp.hasNul_occurredAt (stamp : Stamp) : hasNul stamp.occurredAt = false :=
  stamp.text _ (by simp)

theorem Stamp.hasNul_traceparent (stamp : Stamp) : hasNul stamp.traceparent = false :=
  stamp.text _ (by simp)

/-- A stamp with the given key and row id, at time zero and without a trace. -/
def Stamp.ofKey (key : String) (rowId : Uuid) (h : hasNul key = false := by exact Eq.refl false) :
    Stamp where
  eventId := key
  idempotencyKey := key
  occurredAt := ""
  createdAt := 0
  rowId := rowId
  traceparent := ""
  text := by simp [h, show hasNul "" = false from rfl]

/-- A new envelope : `event.New` in Go, the defaults of the `Envelope` dataclass in
Python, `make_envelope` in C++. -/
def Envelope.new (stamp : Stamp) (eventType sagaId traceparent : String) (data : Json) :
    Envelope :=
  { eventId := stamp.eventId
    eventType := eventType
    schemaVersion := Choreography.schemaVersion
    occurredAt := stamp.occurredAt
    sagaId := sagaId
    idempotencyKey := stamp.idempotencyKey
    traceparent := traceparent
    data := data }

/-! ## The outbox -/

/-- An event to enqueue with a business write. -/
structure OutboxInsert where
  aggregateType : String
  aggregateId : String
  eventType : String
  topic : Topic
  payload : Envelope
  traceparent : String
  deriving DecidableEq

/-- The event as libpq passes it, with texts that are C strings. -/
def OutboxInsert.cStrings (ob : OutboxInsert) : OutboxInsert :=
  { ob with
    aggregateType := cString ob.aggregateType
    aggregateId := cString ob.aggregateId
    eventType := cString ob.eventType
    traceparent := cString ob.traceparent }

inductive OutboxStatus
  | pending
  | published
  deriving DecidableEq, Repr

/-- A row of the outbox table. -/
structure OutboxRow extends OutboxInsert where
  id : Uuid
  status : OutboxStatus
  attempts : ℕ
  createdAt : ℕ
  deriving DecidableEq

abbrev Outbox := Table OutboxRow OutboxRow.id

/-- The row that an insert adds, with the columns that the database fills in. -/
def OutboxInsert.row (stamp : Stamp) (ob : OutboxInsert) : OutboxRow :=
  { ob with
    id := stamp.rowId
    status := .pending
    attempts := 0
    createdAt := stamp.createdAt }

/-- Insert an event as a PENDING row. -/
def insertOutbox (stamp : Stamp) (outbox : Outbox) (ob : OutboxInsert) : Except SqlError Outbox :=
  match outbox.insert (ob.row stamp) with
  | some outbox => .ok outbox
  | none => .error .uniqueViolation

/-- Flag a row as dispatched. -/
def markPublished (outbox : Outbox) (id : Uuid) : Outbox :=
  outbox.update id (fun r => { r with status := .published }) fun _ => rfl

/-- Count a failed attempt; the row stays PENDING. -/
def markFailed (outbox : Outbox) (id : Uuid) : Outbox :=
  outbox.update id (fun r => { r with attempts := r.attempts + 1 }) fun _ => rfl

/-! ## Records -/

/-- A message on a topic. -/
structure Record where
  topic : Topic
  key : String
  value : Envelope
  /-- The `traceparent` header. -/
  traceparent : String
  deriving DecidableEq

/-- The message that the relay publishes for an event. -/
def OutboxInsert.record (ob : OutboxInsert) : Record :=
  ⟨ob.topic, ob.aggregateId, ob.payload, ob.traceparent⟩

/-- The saga that a message belongs to. -/
def Record.saga (r : Record) : Option Uuid := uuidIn r.value.sagaId

/-- The message's idempotency key. -/
def Record.idem (r : Record) : String := r.value.idempotencyKey

/-- The events committed to an outbox, in insertion order. -/
def eventsOf (outbox : Outbox) : List Record := outbox.rows.map fun r => r.record

theorem insertOutbox_eq_ok {stamp : Stamp} {outbox outbox' : Outbox} {ob : OutboxInsert} :
    insertOutbox stamp outbox ob = .ok outbox' ↔
      outbox.find? stamp.rowId = none ∧ outbox'.rows = outbox.rows ++ [ob.row stamp] := by
  refine Iff.trans ?_ (Table.insert_eq_some (r := ob.row stamp))
  unfold insertOutbox
  split
  · next h => simp [h]
  · next h => simp [h]

/-- An outbox takes every event whose row id is free. -/
theorem exists_insertOutbox {stamp : Stamp} {outbox : Outbox}
    (h : outbox.find? stamp.rowId = none) (ob : OutboxInsert) :
    ∃ outbox', insertOutbox stamp outbox ob = .ok outbox' := by
  obtain ⟨outbox', h'⟩ := Table.exists_insert (t := outbox) (r := ob.row stamp) h
  exact ⟨outbox', by simp only [insertOutbox, h']⟩

/-- An INSERT fails only if the row id is taken. -/
theorem insertOutbox_eq_error {stamp : Stamp} {outbox : Outbox} {ob : OutboxInsert} {e : SqlError} :
    insertOutbox stamp outbox ob = .error e ↔
      e = .uniqueViolation ∧ outbox.find? stamp.rowId ≠ none := by
  unfold insertOutbox
  cases h : outbox.insert (ob.row stamp) with
  | none =>
    have htaken : outbox.find? stamp.rowId ≠ none := fun hfree => by
      obtain ⟨outbox', h'⟩ := Table.exists_insert (r := ob.row stamp) hfree
      cases h.symm.trans h'
    simp [htaken, eq_comm]
  | some outbox' =>
    have hfree : outbox.find? stamp.rowId = none := (Table.insert_eq_some.mp h).1
    simp [hfree]

theorem find?_of_insertOutbox {stamp : Stamp} {outbox outbox' : Outbox} {ob : OutboxInsert}
    (h : insertOutbox stamp outbox ob = .ok outbox') (id : Uuid) :
    outbox'.find? id = if id = stamp.rowId then some (ob.row stamp) else outbox.find? id := by
  have hins : outbox.insert (ob.row stamp) = some outbox' :=
    Table.insert_eq_some.mpr (insertOutbox_eq_ok.mp h)
  exact Table.find?_of_insert hins id

theorem eventsOf_insertOutbox {stamp : Stamp} {outbox outbox' : Outbox} {ob : OutboxInsert}
    (h : insertOutbox stamp outbox ob = .ok outbox') :
    eventsOf outbox' = eventsOf outbox ++ [ob.record] := by
  rw [eventsOf, (insertOutbox_eq_ok.mp h).2, List.map_append]
  rfl

/-- An outbox is as it was, or has one PENDING row more. -/
def Enqueued (outbox outbox' : Outbox) : Prop :=
  outbox' = outbox ∨ ∃ row : OutboxRow, row.status = .pending ∧ outbox'.rows = outbox.rows ++ [row]

theorem enqueued_of_insertOutbox {stamp : Stamp} {outbox outbox' : Outbox} {ob : OutboxInsert}
    (h : insertOutbox stamp outbox ob = .ok outbox') : Enqueued outbox outbox' :=
  Or.inr ⟨ob.row stamp, rfl, (insertOutbox_eq_ok.mp h).2⟩

theorem eventsOf_update (outbox : Outbox) (id : Uuid) (f : OutboxRow → OutboxRow)
    (hf : ∀ r, (f r).id = r.id) (hrec : ∀ r, (f r).record = r.record) :
    eventsOf (outbox.update id f hf) = eventsOf outbox := by
  rw [eventsOf, Table.rows_update, List.map_map]
  refine List.map_congr_left fun r _ => ?_
  simp only [Function.comp_apply]
  split_ifs
  · exact hrec r
  · rfl

@[simp] theorem eventsOf_markPublished (outbox : Outbox) (id : Uuid) :
    eventsOf (markPublished outbox id) = eventsOf outbox :=
  eventsOf_update outbox id _ _ fun _ => rfl

@[simp] theorem eventsOf_markFailed (outbox : Outbox) (id : Uuid) :
    eventsOf (markFailed outbox id) = eventsOf outbox :=
  eventsOf_update outbox id _ _ fun _ => rfl

/-! ## The events of an aggregate -/

/-- The events of the aggregate `u`, in insertion order. -/
def insertsOf (u : Uuid) (outbox : Outbox) : List OutboxInsert :=
  (outbox.rows.map OutboxRow.toOutboxInsert).filter fun ob => uuidIn ob.aggregateId = some u

theorem insertsOf_insertOutbox {stamp : Stamp} {outbox outbox' : Outbox} {ob : OutboxInsert}
    {u : Uuid} (h : insertOutbox stamp outbox ob = .ok outbox')
    (hu : uuidIn ob.aggregateId = some u) (v : Uuid) : insertsOf v outbox' =
      if v = u then insertsOf v outbox ++ [ob] else insertsOf v outbox := by
  rw [insertsOf, (insertOutbox_eq_ok.mp h).2, List.map_append, List.filter_append]
  by_cases hv : v = u
  · simp [hu, hv, insertsOf, OutboxInsert.row]
  · simp [hu, hv, Ne.symm hv, insertsOf, OutboxInsert.row]

theorem insertsOf_update (u : Uuid) (outbox : Outbox) (id : Uuid) (f : OutboxRow → OutboxRow)
    (hf : ∀ r, (f r).id = r.id) (hins : ∀ r, (f r).toOutboxInsert = r.toOutboxInsert) :
    insertsOf u (outbox.update id f hf) = insertsOf u outbox := by
  rw [insertsOf, Table.rows_update, List.map_map, insertsOf]
  congr 1
  refine List.map_congr_left fun r _ => ?_
  simp only [Function.comp_apply]
  split_ifs
  · exact hins r
  · rfl

@[simp] theorem insertsOf_markPublished (outbox : Outbox) (id u : Uuid) :
    insertsOf u (markPublished outbox id) = insertsOf u outbox :=
  insertsOf_update u outbox id _ _ fun _ => rfl

@[simp] theorem insertsOf_markFailed (outbox : Outbox) (id u : Uuid) :
    insertsOf u (markFailed outbox id) = insertsOf u outbox :=
  insertsOf_update u outbox id _ _ fun _ => rfl

/-- The types of the events of the aggregate `u`. -/
def eventTypesOf (u : Uuid) (outbox : Outbox) : List String :=
  (insertsOf u outbox).map OutboxInsert.eventType

theorem eventTypesOf_insertOutbox {stamp : Stamp} {outbox outbox' : Outbox} {ob : OutboxInsert}
    {u : Uuid} (h : insertOutbox stamp outbox ob = .ok outbox')
    (hu : uuidIn ob.aggregateId = some u) (v : Uuid) : eventTypesOf v outbox' =
      if v = u then eventTypesOf v outbox ++ [ob.eventType] else eventTypesOf v outbox := by
  rw [eventTypesOf, insertsOf_insertOutbox h hu]
  split_ifs
  · exact List.map_append
  · rfl

/-! ## The messages of the Inventory RPCs -/

structure ReserveStockRequest where
  sagaId : String
  idempotencyKey : String
  sku : String
  quantity : Int4
  deriving DecidableEq

structure ReleaseStockRequest where
  sagaId : String
  reservationId : String
  idempotencyKey : String
  deriving DecidableEq

/-! ## The events of a saga -/

/-- The topics of the events that belong to the saga `u`, in order. -/
def topicsOf (u : Uuid) (events : List Record) : List Topic :=
  (events.filter fun r => r.saga = some u).map Record.topic

theorem topicsOf_append_of_eq {u : Uuid} {r : Record} (h : r.saga = some u)
    (events : List Record) : topicsOf u (events ++ [r]) = topicsOf u events ++ [r.topic] := by
  simp [topicsOf, List.filter_append, h]

theorem topicsOf_append_of_ne {u : Uuid} {r : Record} (h : r.saga ≠ some u)
    (events : List Record) : topicsOf u (events ++ [r]) = topicsOf u events := by
  simp [topicsOf, List.filter_append, h]

theorem mem_topicsOf {u : Uuid} {t : Topic} {events : List Record} :
    t ∈ topicsOf u events ↔ ∃ r ∈ events, r.saga = some u ∧ r.topic = t := by
  simp [topicsOf, and_assoc]

/-- A saga whose topics are distinct has one event for each. -/
theorem eq_of_nodup_topicsOf {u : Uuid} {events : List Record} (h : (topicsOf u events).Nodup)
    {r r' : Record} (hr : r ∈ events) (hr' : r' ∈ events) (hu : r.saga = some u)
    (hu' : r'.saga = some u) (ht : r.topic = r'.topic) : r = r' := by
  refine List.inj_on_of_nodup_map h ?_ ?_ ht
  · exact List.mem_filter.mpr ⟨hr, by simpa using hu⟩
  · exact List.mem_filter.mpr ⟨hr', by simpa using hu'⟩

end Choreography
