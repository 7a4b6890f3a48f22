import Choreography.Inventory
import Choreography.Saga

/-!
# The facts in the three databases

`Facts` is what the databases hold, apart from the stock and the flags of the relays :
the rows per saga, the keys each service has processed, and the events it has
committed. `Facts.Step` is what a transaction of the system adds to them.

`Facts.Consistent` ties the rows to the events and the processed keys, for all sagas at
once : the events of a saga are those that its rows call for (`topics`), keys name one
event each, and a reservation exists exactly for a saga that Inventory reserved. Every
transaction keeps it (`Consistent.step`) and does nothing to a saga, or takes it one
step further (`Step.refines`).
-/

namespace Choreography

open OrderService (Trigger apply topicTrigger)

@[ext]
structure Facts where
  orders : Table OrderService.Order OrderService.Order.id
  payments : Table PaymentService.Payment PaymentService.Payment.sagaId
  reservations : Table InventoryService.Reservation InventoryService.Reservation.sagaId
  /-- The `processed_messages` of each service. -/
  marks : Service → Processed
  /-- The events committed to the outbox of each service. -/
  events : Service → List Record

namespace Facts

/-- Some service has committed the event. -/
def Committed (f : Facts) (r : Record) : Prop := ∃ svc, r ∈ f.events svc

/-- Add an event of a service. -/
def emit (f : Facts) (svc : Service) (e : Record) : Facts :=
  { f with events := Function.update f.events svc (f.events svc ++ [e]) }

/-- Add a processed key of a service. -/
def mark (f : Facts) (svc : Service) (key consumer : String) : Facts :=
  { f with marks := Function.update f.marks svc ((key, consumer) :: f.marks svc) }

def setOrders (f : Facts) (orders : Table OrderService.Order OrderService.Order.id) : Facts :=
  { f with orders := orders }

def setPayments (f : Facts)
    (payments : Table PaymentService.Payment PaymentService.Payment.sagaId) : Facts :=
  { f with payments := payments }

def setReservations (f : Facts)
    (reservations : Table InventoryService.Reservation InventoryService.Reservation.sagaId) :
    Facts :=
  { f with reservations := reservations }

/-- Order has applied an event of the saga with the given trigger. -/
def seen (f : Facts) (u : Uuid) (t : Trigger) : Bool :=
  [Service.order, .payment, .inventory].any fun svc => (f.events svc).any fun r =>
    r.saga = some u ∧ topicTrigger r.topic = some t ∧
      (r.idem, OrderService.consumerName) ∈ f.marks .order

/-- The verdict that the events of Inventory tell. -/
def verdictOf : List Topic → Option Verdict
  | [] => none
  | .inventoryReserved :: _ => some .reserved
  | _ :: _ => some .refused

/-- The saga of one order. -/
def saga (f : Facts) (u : Uuid) : Saga where
  order := (f.orders.find? u).map OrderService.Order.status
  payment := (f.payments.find? u).map PaymentService.Payment.status
  verdict := verdictOf (topicsOf u (f.events .inventory))
  seen := f.seen u

/-! ## What a transaction adds -/

/-- The event belongs to the saga `u`, and its key is new. -/
structure New (f : Facts) (e : Record) (u : Uuid) (topic : Topic) : Prop where
  topic : e.topic = topic
  saga : e.saga = some u
  key : ∀ r, f.Committed r → r.idem ≠ e.idem
  text : hasNul e.idem = false

/-- An event of the saga `u` that Order has not processed, with the order. -/
structure Unprocessed (f : Facts) (r : Record) (t : Trigger) (u : Uuid) (o : OrderService.Order) :
    Prop where
  committed : f.Committed r
  trigger : topicTrigger r.topic = some t
  saga : r.saga = some u
  unmarked : (r.idem, OrderService.consumerName) ∉ f.marks .order
  order : f.orders.find? u = some o

/-- The OrderCreated event of a saga whose payment is captured, and whose key Inventory
has not processed. -/
structure Undecided (f : Facts) (r : Record) (u : Uuid) : Prop where
  committed : r ∈ f.events .order
  topic : r.topic = .orderCreated
  saga : r.saga = some u
  captured : (f.saga u).Published .paymentProcessed
  unmarked : (r.idem, InventoryService.consumerReserve) ∉ f.marks .inventory

/-- What a transaction adds to the facts, and the message that it processes, if any. -/
inductive Step (f : Facts) : Option (Service × Record) → Facts → Prop
  | create {o : OrderService.Order} {orders : Table OrderService.Order OrderService.Order.id}
      {e : Record} (hins : f.orders.insert o = some orders) (hst : o.status = .pending)
      (he : f.New e o.id .orderCreated)
      (hdata : e.value.data = OrderService.orderCreatedData e.value.sagaId o.customerId o.sku
        o.quantity o.amount) :
      Step f none ((f.emit .order e).setOrders orders)
  | apply {r : Record} {t : Trigger} {u : Uuid} {o : OrderService.Order}
      (hr : f.Unprocessed r t u o) (hok : (apply o.status t).2 = none)
      (hc : ¬OrderService.Cancels o.status t) :
      Step f (some (.order, r)) ((f.mark .order r.idem OrderService.consumerName).setOrders
        (OrderService.setStatus f.orders u (OrderService.apply o.status t).1.next))
  | cancel {r : Record} {t : Trigger} {u : Uuid} {o : OrderService.Order} {e : Record}
      (hr : f.Unprocessed r t u o) (hok : (OrderService.apply o.status t).2 = none)
      (hc : OrderService.Cancels o.status t) (he : f.New e u .orderCancelled) :
      Step f (some (.order, r))
        (((f.mark .order r.idem OrderService.consumerName).emit .order e).setOrders
          (OrderService.setStatus f.orders u (OrderService.apply o.status t).1.next))
  | charge {r : Record} {u : Uuid} {p : PaymentService.Payment}
      {payments : Table PaymentService.Payment PaymentService.Payment.sagaId} {e : Record}
      {topic : Topic} (hr : r ∈ f.events .order) (htopic : r.topic = .orderCreated)
      (hu : r.saga = some u) (hp : p.sagaId = u) (hins : f.payments.insert p = some payments)
      (he : f.New e u topic)
      (hst : p.status = .processed ∧ topic = .paymentProcessed ∨
        p.status = .failed ∧ topic = .paymentFailed) :
      Step f (some (.payment, r)) ((f.emit .payment e).setPayments payments)
  | refund {r : Record} {u : Uuid} {e : Record} (hr : f.Committed r)
      (htopic : r.topic = .inventoryReservationFailed) (hu : r.saga = some u)
      (hst : (f.saga u).payment = some .processed) (he : f.New e u .paymentRefunded) :
      Step f (some (.payment, r))
        (((f.mark .payment r.idem PaymentService.refundConsumer).emit .payment e).setPayments
          (PaymentService.setRefunded f.payments u))
  | skipRefund {r : Record} {u : Uuid} (hr : f.Committed r)
      (htopic : r.topic = .inventoryReservationFailed) (hu : r.saga = some u)
      (hst : (f.saga u).payment ≠ some .processed) :
      Step f (some (.payment, r)) (f.mark .payment r.idem PaymentService.refundConsumer)
  | refuse {r : Record} {u : Uuid} {e : Record} (hr : f.Undecided r u)
      (he : f.New e u .inventoryReservationFailed) :
      Step f none ((f.mark .inventory r.idem InventoryService.consumerReserve).emit .inventory e)
  | take {r : Record} {u : Uuid} {e : Record} {o : OrderService.Order} (newId : Uuid)
      (hr : f.Undecided r u) (ho : f.orders.find? u = some o)
      (he : f.New e u .inventoryReserved) :
      Step f none (((f.mark .inventory r.idem InventoryService.consumerReserve).emit .inventory
        e).setReservations (InventoryService.upsertReservation f.reservations
          ⟨newId, u, o.sku, o.quantity, .reserved⟩).2)
  | ignore {r : Record} (hr : f.Committed r) (htopic : r.topic = .orderCancelled) :
      Step f (some (.inventory, r))
        (f.mark .inventory r.idem InventoryService.consumerOrderCancelled)

/-! ## Events and processed keys -/

variable {f f' : Facts} {m : Option (Service × Record)}

@[simp] theorem marks_emit (f : Facts) (svc : Service) (e : Record) :
    (f.emit svc e).marks = f.marks := rfl

@[simp] theorem marks_setPayments (f : Facts)
    (payments : Table PaymentService.Payment PaymentService.Payment.sagaId) :
    (f.setPayments payments).marks = f.marks := rfl

@[simp] theorem marks_setReservations (f : Facts)
    (reservations : Table InventoryService.Reservation InventoryService.Reservation.sagaId) :
    (f.setReservations reservations).marks = f.marks := rfl

@[simp] theorem events_setOrders (f : Facts)
    (orders : Table OrderService.Order OrderService.Order.id) :
    (f.setOrders orders).events = f.events := rfl

@[simp] theorem events_setReservations (f : Facts)
    (reservations : Table InventoryService.Reservation InventoryService.Reservation.sagaId) :
    (f.setReservations reservations).events = f.events := rfl

theorem mem_events_emit {svc svc' : Service} {e r : Record} :
    r ∈ (f.emit svc e).events svc' ↔ r ∈ f.events svc' ∨ svc' = svc ∧ r = e := by
  simp only [emit, Function.update_apply]
  split_ifs with hs
  · subst hs
    simp
  · simp [hs]

theorem committed_emit {svc : Service} {e r : Record} :
    (f.emit svc e).Committed r ↔ f.Committed r ∨ r = e := by
  constructor
  · rintro ⟨svc', hr⟩
    rcases mem_events_emit.mp hr with hr | ⟨-, hr⟩
    · exact Or.inl ⟨svc', hr⟩
    · exact Or.inr hr
  · rintro (⟨svc', hr⟩ | hr)
    · exact ⟨svc', mem_events_emit.mpr (Or.inl hr)⟩
    · exact ⟨svc, mem_events_emit.mpr (Or.inr ⟨rfl, hr⟩)⟩

theorem topicsOf_emit (f : Facts) (svc : Service) (e : Record) (svc' : Service) (u : Uuid) :
    topicsOf u ((f.emit svc e).events svc') =
      if svc' = svc ∧ e.saga = some u then topicsOf u (f.events svc') ++ [e.topic]
      else topicsOf u (f.events svc') := by
  simp only [emit]
  by_cases hs : svc' = svc
  · subst hs
    rw [Function.update_self]
    by_cases hu : e.saga = some u
    · rw [topicsOf_append_of_eq hu, if_pos ⟨rfl, hu⟩]
    · rw [topicsOf_append_of_ne hu, if_neg fun h => hu h.2]
  · rw [Function.update_of_ne hs, if_neg fun h => hs h.1]

theorem mem_marks_mark {svc svc' : Service} {key consumer : String} {m : String × String} :
    m ∈ (f.mark svc key consumer).marks svc' ↔
      (svc' = svc ∧ m = (key, consumer)) ∨ m ∈ f.marks svc' := by
  unfold mark
  simp only [Function.update_apply]
  split_ifs with hs
  · subst hs
    simp
  · simp [hs]

theorem seen_eq_true {u : Uuid} {t : Trigger} :
    f.seen u t = true ↔ ∃ r, f.Committed r ∧ r.saga = some u ∧ topicTrigger r.topic = some t ∧
      (r.idem, OrderService.consumerName) ∈ f.marks .order := by
  unfold seen Committed
  constructor
  · intro h
    obtain ⟨svc, -, h⟩ := List.any_eq_true.mp h
    obtain ⟨r, hr, h⟩ := List.any_eq_true.mp h
    exact ⟨r, ⟨svc, hr⟩, by simpa using h⟩
  · rintro ⟨r, ⟨svc, hr⟩, h⟩
    refine List.any_eq_true.mpr ⟨svc, by cases svc <;> simp, ?_⟩
    exact List.any_eq_true.mpr ⟨r, hr, by simpa using h⟩

/-- Events belong to sagas and have distinct keys, and the processed keys are theirs. -/
structure Keyed (f : Facts) : Prop where
  saga : ∀ r, f.Committed r → ∃ u, r.saga = some u
  inj : ∀ r r', f.Committed r → f.Committed r' → r.idem = r'.idem → r = r'
  text : ∀ r, f.Committed r → hasNul r.idem = false
  marks : ∀ svc k c, (k, c) ∈ f.marks svc → ∃ r, f.Committed r ∧ r.idem = k

theorem Keyed.emit (h : f.Keyed) {e : Record} {u : Uuid} {topic : Topic} (he : f.New e u topic)
    (svc : Service) : (f.emit svc e).Keyed where
  saga r hr := by
    rcases committed_emit.mp hr with hr | rfl
    · exact h.saga r hr
    · exact ⟨u, he.saga⟩
  inj r r' hr hr' hk := by
    rcases committed_emit.mp hr with h1 | h1 <;> rcases committed_emit.mp hr' with h2 | h2
    · exact h.inj r r' h1 h2 hk
    · exact absurd (hk.trans (by rw [h2])) (he.key r h1)
    · exact absurd (hk.symm.trans (by rw [h1])) (he.key r' h2)
    · rw [h1, h2]
  text r hr := by
    rcases committed_emit.mp hr with hr | rfl
    · exact h.text r hr
    · exact he.text
  marks svc' k c hm := by
    obtain ⟨r, hr, hk⟩ := h.marks svc' k c hm
    exact ⟨r, committed_emit.mpr (Or.inl hr), hk⟩

theorem Keyed.mark (h : f.Keyed) {r : Record} (hr : f.Committed r) (svc : Service)
    (consumer : String) : (f.mark svc r.idem consumer).Keyed where
  saga := h.saga
  inj := h.inj
  text := h.text
  marks svc' k c hm := by
    rcases mem_marks_mark.mp hm with ⟨-, hm⟩ | hm
    · exact ⟨r, hr, (Prod.mk.inj hm).1.symm⟩
    · exact h.marks svc' k c hm

/-- No service has processed a new key. -/
theorem Keyed.unmarked (h : f.Keyed) {e : Record} {u : Uuid} {topic : Topic}
    (he : f.New e u topic) (svc : Service) (c : String) : (e.idem, c) ∉ f.marks svc := by
  intro hm
  obtain ⟨r, hr, hk⟩ := h.marks svc _ c hm
  exact he.key r hr hk

/-- Order has not seen a new event. -/
theorem seen_emit (h : f.Keyed) {e : Record} {u : Uuid} {topic : Topic} (he : f.New e u topic)
    (svc : Service) (v : Uuid) (t : Trigger) : (f.emit svc e).seen v t = f.seen v t := by
  rw [Bool.eq_iff_iff, seen_eq_true, seen_eq_true]
  constructor
  · rintro ⟨r, hr, hv, ht, hm⟩
    rcases committed_emit.mp hr with hr | rfl
    · exact ⟨r, hr, hv, ht, hm⟩
    · exact absurd hm (h.unmarked he .order _)
  · rintro ⟨r, hr, hv, ht, hm⟩
    exact ⟨r, committed_emit.mpr (Or.inl hr), hv, ht, hm⟩

theorem seen_mark_of_ne {svc : Service} (hs : svc ≠ .order) (key consumer : String) (v : Uuid)
    (t : Trigger) : (f.mark svc key consumer).seen v t = f.seen v t := by
  unfold seen mark
  simp only [Function.update_of_ne hs.symm]

/-- Order sees the event whose key it processes. -/
theorem seen_mark (h : f.Keyed) {r : Record} {u : Uuid} {t : Trigger} (hr : f.Committed r)
    (hu : r.saga = some u) (ht : topicTrigger r.topic = some t) (v : Uuid) (t' : Trigger) :
    (f.mark .order r.idem OrderService.consumerName).seen v t' =
      if v = u ∧ t' = t then true else f.seen v t' := by
  rw [Bool.eq_iff_iff, seen_eq_true]
  constructor
  · rintro ⟨r', hr', hv, ht', hm⟩
    rcases mem_marks_mark.mp hm with ⟨-, hm⟩ | hm
    · obtain rfl := h.inj r' r hr' hr (Prod.mk.inj hm).1
      rw [hu, Option.some.injEq] at hv
      rw [ht, Option.some.injEq] at ht'
      simp [hv, ht']
    · split_ifs
      · rfl
      · exact seen_eq_true.mpr ⟨r', hr', hv, ht', hm⟩
  · intro hseen
    split_ifs at hseen with hvt
    · obtain ⟨rfl, rfl⟩ := hvt
      exact ⟨r, hr, hu, ht, mem_marks_mark.mpr (Or.inl ⟨rfl, rfl⟩)⟩
    · obtain ⟨r', hr', hv, ht', hm⟩ := seen_eq_true.mp hseen
      exact ⟨r', hr', hv, ht', mem_marks_mark.mpr (Or.inr hm)⟩

/-! ## The sagas after a transaction -/

theorem New.mark {e : Record} {u : Uuid} {topic : Topic} (he : f.New e u topic) (svc : Service)
    (key consumer : String) : (f.mark svc key consumer).New e u topic :=
  ⟨he.topic, he.saga, he.key, he.text⟩

/-- A new event changes no saga, unless it is a verdict. -/
theorem saga_emit (h : f.Keyed) {e : Record} {u : Uuid} {topic : Topic} (he : f.New e u topic)
    {svc : Service} (hs : svc ≠ .inventory) (v : Uuid) : (f.emit svc e).saga v = f.saga v := by
  refine Saga.ext rfl rfl ?_ (funext fun t => seen_emit h he svc v t)
  simp only [saga]
  rw [topicsOf_emit, if_neg fun hc => hs hc.1.symm]

theorem saga_mark_of_ne {svc : Service} (hs : svc ≠ .order) (key consumer : String) (v : Uuid) :
    (f.mark svc key consumer).saga v = f.saga v :=
  Saga.ext rfl rfl rfl (funext fun t => seen_mark_of_ne hs key consumer v t)

theorem saga_setOrders (f : Facts) (orders : Table OrderService.Order OrderService.Order.id)
    (v : Uuid) : (f.setOrders orders).saga v =
      { f.saga v with order := (orders.find? v).map OrderService.Order.status } := rfl

theorem saga_setPayments (f : Facts)
    (payments : Table PaymentService.Payment PaymentService.Payment.sagaId) (v : Uuid) :
    (f.setPayments payments).saga v =
      { f.saga v with payment := (payments.find? v).map PaymentService.Payment.status } := rfl

theorem saga_setReservations (f : Facts)
    (reservations : Table InventoryService.Reservation InventoryService.Reservation.sagaId)
    (v : Uuid) : (f.setReservations reservations).saga v = f.saga v := rfl

theorem saga_create (h : f.Keyed) {o : OrderService.Order}
    {orders : Table OrderService.Order OrderService.Order.id} {e : Record}
    (hins : f.orders.insert o = some orders) (he : f.New e o.id .orderCreated) (v : Uuid) :
    ((f.emit .order e).setOrders orders).saga v =
      if v = o.id then { f.saga v with order := some o.status } else f.saga v := by
  rw [saga_setOrders, saga_emit h he Service.noConfusion, Table.find?_of_insert hins]
  split_ifs
  · rfl
  · rfl

/-- Order processes an event : its saga sees it, and moves to the next status. -/
theorem saga_apply (h : f.Keyed) {r : Record} {t : Trigger} {u : Uuid} {o : OrderService.Order}
    (hr : f.Unprocessed r t u o) (next : OrderService.Status) (v : Uuid) :
    ((f.mark .order r.idem OrderService.consumerName).setOrders
      (OrderService.setStatus f.orders u next)).saga v =
      if v = u then
        { f.saga u with order := some next, seen := Function.update (f.saga u).seen t true }
      else f.saga v := by
  have hseen := seen_mark h hr.committed hr.saga hr.trigger v
  rw [saga_setOrders, OrderService.find?_setStatus]
  split_ifs with hv
  · subst hv
    refine Saga.ext (by rw [hr.order]; rfl) rfl rfl (funext fun t' => (hseen t').trans ?_)
    simp only [Function.update_apply, true_and]
    rfl
  · refine Saga.ext rfl rfl rfl (funext fun t' => (hseen t').trans ?_)
    rw [if_neg fun hc => hv hc.1]
    rfl

theorem saga_cancel (h : f.Keyed) {r : Record} {t : Trigger} {u : Uuid} {o : OrderService.Order}
    {e : Record} (hr : f.Unprocessed r t u o) (he : f.New e u .orderCancelled)
    (next : OrderService.Status) (v : Uuid) :
    (((f.mark .order r.idem OrderService.consumerName).emit .order e).setOrders
      (OrderService.setStatus f.orders u next)).saga v =
      if v = u then
        { f.saga u with order := some next, seen := Function.update (f.saga u).seen t true }
      else f.saga v := by
  rw [← saga_apply h hr next v, saga_setOrders, saga_setOrders,
    saga_emit (h.mark hr.committed .order _) (he.mark _ _ _) Service.noConfusion]

theorem saga_charge (h : f.Keyed) {p : PaymentService.Payment}
    {payments : Table PaymentService.Payment PaymentService.Payment.sagaId} {e : Record}
    {u : Uuid} {topic : Topic} (hins : f.payments.insert p = some payments) (he : f.New e u topic)
    (v : Uuid) :
    ((f.emit .payment e).setPayments payments).saga v =
      if v = p.sagaId then { f.saga v with payment := some p.status } else f.saga v := by
  rw [saga_setPayments, saga_emit h he Service.noConfusion, Table.find?_of_insert hins]
  split_ifs
  · rfl
  · rfl

theorem saga_refund (h : f.Keyed) {r : Record} {u : Uuid} {e : Record} (hr : f.Committed r)
    (hst : (f.saga u).payment = some .processed) (he : f.New e u .paymentRefunded) (v : Uuid) :
    (((f.mark .payment r.idem PaymentService.refundConsumer).emit .payment e).setPayments
      (PaymentService.setRefunded f.payments u)).saga v =
      if v = u then { f.saga u with payment := some .refunded } else f.saga v := by
  rw [saga_setPayments, saga_emit (h.mark hr .payment _) (he.mark _ _ _) Service.noConfusion,
    saga_mark_of_ne Service.noConfusion, PaymentService.find?_setRefunded]
  split_ifs with hv
  · subst hv
    cases hp : f.payments.find? v with
    | none => simp [saga, hp] at hst
    | some p => rfl
  · rfl

/-- Inventory commits the first verdict of a saga. -/
theorem saga_decide (h : f.Keyed) {r : Record} {u : Uuid} {e : Record} {topic : Topic}
    (hr : f.Committed r) (hnone : topicsOf u (f.events .inventory) = []) (he : f.New e u topic)
    (v : Uuid) :
    ((f.mark .inventory r.idem InventoryService.consumerReserve).emit .inventory e).saga v =
      if v = u then { f.saga u with verdict := verdictOf [topic] } else f.saga v := by
  have hseen : ∀ t, ((f.mark .inventory r.idem InventoryService.consumerReserve).emit .inventory
      e).seen v t = f.seen v t := by
    intro t
    rw [seen_emit (h.mark hr .inventory _) (he.mark _ _ _), seen_mark_of_ne Service.noConfusion]
  have htopics := topicsOf_emit (f.mark .inventory r.idem InventoryService.consumerReserve)
    .inventory e .inventory v
  split_ifs with hv
  · subst hv
    refine Saga.ext rfl rfl ?_ (funext hseen)
    rw [if_pos ⟨rfl, he.saga⟩, he.topic] at htopics
    exact congrArg verdictOf (htopics.trans (congrArg (· ++ [topic]) hnone))
  · refine Saga.ext rfl rfl ?_ (funext hseen)
    rw [if_neg fun hc => hv (Option.some.inj (hc.2.symm.trans he.saga))] at htopics
    exact congrArg verdictOf htopics

/-! ## Consistency -/

/-- The rows, the events and the processed keys fit together. -/
structure Consistent (f : Facts) : Prop extends Keyed f where
  topics : ∀ svc u, topicsOf u (f.events svc) = (f.saga u).topics svc
  created : ∀ r ∈ f.events .order, r.topic = .orderCreated → ∀ u, r.saga = some u →
    ∃ o, f.orders.find? u = some o ∧ r.value.data =
      OrderService.orderCreatedData r.value.sagaId o.customerId o.sku o.quantity o.amount
  reserved : ∀ u, (f.saga u).verdict = some .reserved →
    ∃ o row, f.orders.find? u = some o ∧ f.reservations.find? u = some row ∧
      row.sku = o.sku ∧ row.quantity = o.quantity ∧ row.status = .reserved
  unreserved : ∀ u, (f.saga u).verdict ≠ some .reserved → f.reservations.find? u = none
  refunds : ∀ r, f.Committed r → (r.idem, PaymentService.refundConsumer) ∈ f.marks .payment →
    ∀ u, r.saga = some u → (f.saga u).payment = some .refunded
  decided : ∀ r ∈ f.events .order, r.topic = .orderCreated → ∀ u, r.saga = some u →
    ((r.idem, InventoryService.consumerReserve) ∈ f.marks .inventory ↔ (f.saga u).verdict ≠ none)
  inv : ∀ u, (f.saga u).Inv

namespace Consistent

theorem mem_topics (h : f.Consistent) {svc : Service} {r : Record} {u : Uuid}
    (hr : r ∈ f.events svc) (hu : r.saga = some u) : r.topic ∈ (f.saga u).topics svc := by
  rw [← h.topics svc u]
  exact mem_topicsOf.mpr ⟨r, hr, hu, rfl⟩

/-- An event is in the outbox of the service that publishes its topic. -/
theorem mem_events (h : f.Consistent) {r : Record} (hr : f.Committed r) :
    r ∈ f.events r.topic.service := by
  obtain ⟨u, hu⟩ := h.saga r hr
  obtain ⟨svc, hr⟩ := hr
  rwa [Saga.service_of_mem_topics (h.mem_topics hr hu)]

/-- A saga has one event for each topic. -/
theorem unique (h : f.Consistent) {r r' : Record} {u : Uuid} (hr : f.Committed r)
    (hr' : f.Committed r') (hu : r.saga = some u) (hu' : r'.saga = some u)
    (ht : r.topic = r'.topic) : r = r' := by
  have hmem := h.mem_events hr
  have hmem' := h.mem_events hr'
  rw [← ht] at hmem'
  refine eq_of_nodup_topicsOf ?_ hmem hmem' hu hu' ht
  rw [h.topics]
  exact Saga.topics_nodup _ _

theorem published_iff (h : f.Consistent) {u : Uuid} {t : Trigger} :
    (f.saga u).Published t ↔ ∃ r, f.Committed r ∧ r.saga = some u ∧ r.topic = t.topic := by
  rw [Saga.published_iff, ← h.topics, mem_topicsOf]
  constructor
  · rintro ⟨r, hr, hu, ht⟩
    exact ⟨r, ⟨_, hr⟩, hu, ht⟩
  · rintro ⟨r, hr, hu, ht⟩
    exact ⟨r, ht ▸ h.mem_events hr, hu, ht⟩

/-- A saga has seen an event exactly if Order has processed its key. -/
theorem seen_iff (h : f.Consistent) {r : Record} {u : Uuid} {t : Trigger} (hr : f.Committed r)
    (hu : r.saga = some u) (ht : r.topic = t.topic) :
    (f.saga u).seen t = true ↔ (r.idem, OrderService.consumerName) ∈ f.marks .order := by
  refine seen_eq_true.trans
    ⟨?_, fun hm => ⟨r, hr, hu, OrderService.topicTrigger_eq_some.mpr ht, hm⟩⟩
  rintro ⟨r', hr', hu', ht', hm⟩
  rwa [h.unique hr hr' hu hu' (ht.trans (OrderService.topicTrigger_eq_some.mp ht').symm)]

/-- The order of a saga that has an OrderCreated event, or a later one, exists. -/
theorem order_ne_none (h : f.Consistent) {r : Record} {u : Uuid} (hr : r ∈ f.events .order)
    (hu : r.saga = some u) : (f.saga u).order ≠ none := by
  intro ho
  have hmem := h.mem_topics hr hu
  simp [Saga.topics, ho] at hmem

theorem refused_of_committed (h : f.Consistent) {r : Record} {u : Uuid} (hr : f.Committed r)
    (htopic : r.topic = .inventoryReservationFailed) (hu : r.saga = some u) :
    (f.saga u).verdict = some .refused :=
  h.published_iff (t := .inventoryReservationFail) |>.mpr ⟨r, hr, hu, htopic⟩

theorem cancelled_of_committed (h : f.Consistent) {r : Record} {u : Uuid} (hr : f.Committed r)
    (htopic : r.topic = .orderCancelled) (hu : r.saga = some u) :
    (f.saga u).order = some .cancelled := by
  have hmem := h.mem_topics (h.mem_events hr) hu
  rw [htopic] at hmem
  cases ho : (f.saga u).order with
  | none => simp [Saga.topics, Topic.service, ho] at hmem
  | some st => cases st <;> simp [Saga.topics, Topic.service, ho] at hmem ⊢

/-- A key that Inventory has not processed belongs to a saga without a verdict. -/
theorem verdict_of_undecided (h : f.Consistent) {r : Record} {u : Uuid} (hr : f.Undecided r u) :
    (f.saga u).verdict = none := by
  by_contra hv
  exact hr.unmarked ((h.decided r hr.committed hr.topic u hr.saga).mpr hv)

theorem topics_of_undecided (h : f.Consistent) {r : Record} {u : Uuid} (hr : f.Undecided r u) :
    topicsOf u (f.events .inventory) = [] := by
  rw [h.topics]
  simp [Saga.topics, h.verdict_of_undecided hr]

/-- The event of a verdict decides its saga. -/
theorem verdict_emit (h : f.Consistent) {r : Record} {u : Uuid} (hr : f.Undecided r u) {e : Record}
    {topic : Topic} (he : f.New e u topic) :
    (((f.mark .inventory r.idem InventoryService.consumerReserve).emit .inventory e).saga
      u).verdict ≠ none := by
  rw [saga_decide h.toKeyed ⟨_, hr.committed⟩ (h.topics_of_undecided hr) he, if_pos rfl]
  cases topic <;> simp [verdictOf]

/-- An event that Order has not processed takes its saga one step further. -/
theorem deliver (h : f.Consistent) {r : Record} {t : Trigger} {u : Uuid} {o : OrderService.Order}
    (hr : f.Unprocessed r t u o) (hok : (OrderService.apply o.status t).2 = none) :
    Saga.Step (f.saga u) { f.saga u with
      order := some (OrderService.apply o.status t).1.next
      seen := Function.update (f.saga u).seen t true } := by
  have ht := OrderService.topicTrigger_eq_some.mp hr.trigger
  refine Saga.Step.deliver t o.status (by simp [Facts.saga, hr.order]) ?_ ?_ hok
  · exact h.published_iff.mpr ⟨r, hr.committed, hr.saga, ht⟩
  · rw [← Bool.not_eq_true, h.seen_iff hr.committed hr.saga ht]
    exact hr.unmarked

end Consistent

/-- Order applies the event, which takes its order and its saga, and no other, from `f` to
`f'`. -/
def Applies (f f' : Facts) (r : Record) : Prop :=
  ∃ t u o, f.Unprocessed r t u o ∧ (OrderService.apply o.status t).2 = none ∧
    f'.orders = OrderService.setStatus f.orders u (OrderService.apply o.status t).1.next ∧
    ∀ v, f'.saga v = if v = u then
        { f.saga u with
          order := some (OrderService.apply o.status t).1.next
          seen := Function.update (f.saga u).seen t true }
      else f.saga v

/-- What a transaction does to a saga is nothing, or one step of it. -/
theorem Step.refines (hs : f.Step m f') (h : f.Consistent) (v : Uuid) :
    f'.saga v = f.saga v ∨ Saga.Step (f.saga v) (f'.saga v) := by
  cases hs with
  | create hins hst he hdata =>
    rw [saga_create h.toKeyed hins he]
    split_ifs with hv
    · right
      have hnone := (Table.insert_eq_some.mp hins).1
      rw [hst]
      exact Saga.Step.create (by simp [saga, hv, hnone])
    · exact Or.inl rfl
  | apply hr hok hc =>
    rw [saga_apply h.toKeyed hr]
    split_ifs with hv
    · subst hv
      exact Or.inr (h.deliver hr hok)
    · exact Or.inl rfl
  | cancel hr hok hc he =>
    rw [saga_cancel h.toKeyed hr he]
    split_ifs with hv
    · subst hv
      exact Or.inr (h.deliver hr hok)
    · exact Or.inl rfl
  | charge hr htopic hu hp hins he hst =>
    rw [saga_charge h.toKeyed hins he]
    split_ifs with hv
    · right
      have hnone := (Table.insert_eq_some.mp hins).1
      refine Saga.Step.charge (h.order_ne_none hr ?_) (by simp [saga, hv, hnone]) ?_
      · rw [hu, hv, hp]
      · rcases hst with ⟨hst, -⟩ | ⟨hst, -⟩ <;> simp [hst]
    · exact Or.inl rfl
  | refund hr htopic hu hst he =>
    rw [saga_refund h.toKeyed hr hst he]
    split_ifs with hv
    · right
      subst hv
      exact Saga.Step.refund hst (h.refused_of_committed hr htopic hu)
    · exact Or.inl rfl
  | skipRefund hr htopic hu hst => exact Or.inl (saga_mark_of_ne Service.noConfusion _ _ v)
  | refuse hr he =>
    rw [saga_decide h.toKeyed ⟨_, hr.committed⟩ (h.topics_of_undecided hr) he]
    split_ifs with hv
    · right
      subst hv
      exact Saga.Step.decide .refused hr.captured (h.verdict_of_undecided hr)
    · exact Or.inl rfl
  | take newId hr ho he =>
    rw [saga_setReservations,
      saga_decide h.toKeyed ⟨_, hr.committed⟩ (h.topics_of_undecided hr) he]
    split_ifs with hv
    · right
      subst hv
      exact Saga.Step.decide .reserved hr.captured (h.verdict_of_undecided hr)
    · exact Or.inl rfl
  | ignore hr htopic => exact Or.inl (saga_mark_of_ne Service.noConfusion _ _ v)

theorem Step.saga_inv (hs : f.Step m f') (h : f.Consistent) (u : Uuid) : (f'.saga u).Inv := by
  rcases hs.refines h u with heq | hstep
  · exact heq ▸ h.inv u
  · exact (h.inv u).step hstep

/-! ## Every transaction keeps the facts consistent -/

/-- Orders stay, and only their status changes. -/
def OrdersKept (f f' : Facts) : Prop :=
  ∀ u o, f.orders.find? u = some o → ∃ st, f'.orders.find? u = some { o with status := st }

theorem ordersKept_setStatus {u : Uuid} {next : OrderService.Status}
    (h : f'.orders = OrderService.setStatus f.orders u next) : f.OrdersKept f' := by
  intro v o ho
  rw [h, OrderService.find?_setStatus]
  split_ifs with hv
  · subst hv
    exact ⟨next, by rw [ho]; rfl⟩
  · exact ⟨o.status, ho⟩

theorem ordersKept_of_insert {o : OrderService.Order}
    (h : f.orders.insert o = some f'.orders) : f.OrdersKept f' := by
  intro u o' ho
  refine ⟨o'.status, (Table.find?_of_insert h u).trans ?_⟩
  rw [if_neg, ho]
  rintro rfl
  simp [(Table.insert_eq_some.mp h).1] at ho

theorem ordersKept_of_eq (h : f'.orders = f.orders) : f.OrdersKept f' :=
  fun _ o ho => ⟨o.status, by rw [h]; exact ho⟩

namespace Consistent

/-- The events after a new one are those that the rows call for, if the rows of its saga
call for it. -/
theorem topics_emit (h : f.Consistent) {e : Record} {u : Uuid} (svc : Service)
    (hu : e.saga = some u) (hevents : f'.events = (f.emit svc e).events)
    (hne : ∀ v, v ≠ u → f'.saga v = f.saga v)
    (heq : ∀ svc', (f'.saga u).topics svc' =
      if svc' = svc then (f.saga u).topics svc' ++ [e.topic] else (f.saga u).topics svc')
    (svc' : Service) (v : Uuid) : topicsOf v (f'.events svc') = (f'.saga v).topics svc' := by
  rw [hevents, topicsOf_emit]
  by_cases hv : v = u
  · subst hv
    rw [heq, h.topics]
    simp [hu]
  · rw [hne v hv, h.topics, if_neg]
    rintro ⟨-, hv'⟩
    rw [hu, Option.some.injEq] at hv'
    exact hv hv'.symm

theorem created_of (h : f.Consistent) (hkept : f.OrdersKept f') {r : Record}
    (hr : r ∈ f.events .order) (htopic : r.topic = .orderCreated) (u : Uuid)
    (hu : r.saga = some u) : ∃ o, f'.orders.find? u = some o ∧ r.value.data =
      OrderService.orderCreatedData r.value.sagaId o.customerId o.sku o.quantity o.amount := by
  obtain ⟨o, ho, hdata⟩ := h.created r hr htopic u hu
  obtain ⟨st, ho'⟩ := hkept u o ho
  exact ⟨_, ho', hdata⟩

theorem reserved_of (h : f.Consistent) (hkept : f.OrdersKept f')
    (hres : f'.reservations = f.reservations) {u : Uuid}
    (hv : (f.saga u).verdict = some .reserved) :
    ∃ o row, f'.orders.find? u = some o ∧ f'.reservations.find? u = some row ∧
      row.sku = o.sku ∧ row.quantity = o.quantity ∧ row.status = .reserved := by
  obtain ⟨o, row, ho, hrow, hsku, hq, hst⟩ := h.reserved u hv
  obtain ⟨st, ho'⟩ := hkept u o ho
  exact ⟨_, row, ho', by rw [hres]; exact hrow, hsku, hq, hst⟩

/-- No verdict before the order. -/
theorem verdict_of_order (h : f.Consistent) {u : Uuid} (ho : (f.saga u).order = none) :
    (f.saga u).verdict = none := by
  by_contra hv
  have hinv := h.inv u
  refine hinv.created ?_ ho
  rcases hinv.captured hv with hp | hp <;> simp [hp]

theorem create (h : f.Consistent) {o : OrderService.Order}
    {orders : Table OrderService.Order OrderService.Order.id} {e : Record}
    (hins : f.orders.insert o = some orders) (hst : o.status = .pending)
    (he : f.New e o.id .orderCreated) (hdata : e.value.data = OrderService.orderCreatedData
      e.value.sagaId o.customerId o.sku o.quantity o.amount) :
    ((f.emit .order e).setOrders orders).Consistent := by
  have hsaga := saga_create h.toKeyed hins he
  have hkeyed := h.toKeyed.emit he .order
  have hnone := (Table.insert_eq_some.mp hins).1
  have ho : (f.saga o.id).order = none := by simp [Facts.saga, hnone]
  have hkept : f.OrdersKept ((f.emit .order e).setOrders orders) := ordersKept_of_insert hins
  have hverdict : ∀ u, (((f.emit .order e).setOrders orders).saga u).verdict =
      (f.saga u).verdict := by
    intro u
    rw [hsaga]
    split_ifs <;> rfl
  have hpayment : ∀ u, (((f.emit .order e).setOrders orders).saga u).payment =
      (f.saga u).payment := by
    intro u
    rw [hsaga]
    split_ifs <;> rfl
  refine ⟨⟨hkeyed.saga, hkeyed.inj, hkeyed.text, hkeyed.marks⟩, ?_, ?_, fun u hv => ?_,
    fun u hv => ?_, ?_, ?_, (Step.create hins hst he hdata).saga_inv h⟩
  · refine h.topics_emit .order he.saga rfl (fun v hv => by rw [hsaga, if_neg hv]) fun svc' => ?_
    rw [hsaga, if_pos rfl, hst, he.topic]
    cases svc' <;> simp [Saga.topics, ho]
  · intro r hr htopic u hu
    rw [events_setOrders, mem_events_emit] at hr
    rcases hr with hr | ⟨-, rfl⟩
    · exact h.created_of hkept hr htopic u hu
    · rw [he.saga, Option.some.injEq] at hu
      exact ⟨o, (Table.find?_of_insert hins u).trans (if_pos hu.symm), hdata⟩
  · exact h.reserved_of hkept rfl (hverdict u ▸ hv)
  · exact h.unreserved u (hverdict u ▸ hv)
  · intro r hr hm u hu
    rw [hpayment]
    rcases committed_emit.mp hr with hr | rfl
    · exact h.refunds r hr hm u hu
    · exact absurd hm (h.toKeyed.unmarked he .payment _)
  · intro r hr htopic u hu
    rw [hverdict]
    rw [events_setOrders, mem_events_emit] at hr
    rcases hr with hr | ⟨-, rfl⟩
    · exact h.decided r hr htopic u hu
    · rw [he.saga, Option.some.injEq] at hu
      subst hu
      refine ⟨fun hm => absurd hm (h.toKeyed.unmarked he .inventory _), fun hv => ?_⟩
      exact absurd (h.verdict_of_order ho) hv

theorem apply (h : f.Consistent) {r : Record} {t : Trigger} {u : Uuid} {o : OrderService.Order}
    (hr : f.Unprocessed r t u o) (hok : (OrderService.apply o.status t).2 = none)
    (hc : ¬OrderService.Cancels o.status t) :
    ((f.mark .order r.idem OrderService.consumerName).setOrders
      (OrderService.setStatus f.orders u (OrderService.apply o.status t).1.next)).Consistent := by
  have hsaga := saga_apply h.toKeyed hr (OrderService.apply o.status t).1.next
  have hkeyed := h.toKeyed.mark hr.committed .order OrderService.consumerName
  have hkept : f.OrdersKept ((f.mark .order r.idem OrderService.consumerName).setOrders
      (OrderService.setStatus f.orders u (OrderService.apply o.status t).1.next)) :=
    ordersKept_setStatus rfl
  refine ⟨⟨hkeyed.saga, hkeyed.inj, hkeyed.text, hkeyed.marks⟩, fun svc v => ?_, fun r' hr' =>
    h.created_of hkept hr', fun v hv => h.reserved_of hkept rfl hv, fun v hv => h.unreserved v hv,
    h.refunds, h.decided, (Step.apply hr hok hc).saga_inv h⟩
  refine (h.topics svc v).trans ?_
  rw [hsaga]
  split_ifs with hv
  · subst hv
    rw [Saga.topics_apply (by simp [Facts.saga, hr.order]), if_neg fun hcan => hc hcan.2]
  · rfl

theorem cancel (h : f.Consistent) {r : Record} {t : Trigger} {u : Uuid} {o : OrderService.Order}
    {e : Record} (hr : f.Unprocessed r t u o) (hok : (OrderService.apply o.status t).2 = none)
    (hc : OrderService.Cancels o.status t) (he : f.New e u .orderCancelled) :
    (((f.mark .order r.idem OrderService.consumerName).emit .order e).setOrders
      (OrderService.setStatus f.orders u (OrderService.apply o.status t).1.next)).Consistent := by
  have hsaga := saga_cancel h.toKeyed hr he (OrderService.apply o.status t).1.next
  have hkeyed := (h.toKeyed.mark hr.committed .order OrderService.consumerName).emit
    (he.mark _ _ _) .order
  have hkept : f.OrdersKept (((f.mark .order r.idem OrderService.consumerName).emit .order
      e).setOrders (OrderService.setStatus f.orders u (OrderService.apply o.status t).1.next)) :=
    ordersKept_setStatus rfl
  have hverdict : ∀ v, ((((f.mark .order r.idem OrderService.consumerName).emit .order e).setOrders
      (OrderService.setStatus f.orders u (OrderService.apply o.status t).1.next)).saga v).verdict =
      (f.saga v).verdict := by
    intro v
    rw [hsaga]
    split_ifs with hv
    · rw [hv]
    · rfl
  have hmem : ∀ r' ∈ (((f.mark .order r.idem OrderService.consumerName).emit .order e).setOrders
      (OrderService.setStatus f.orders u (OrderService.apply o.status t).1.next)).events .order,
      r'.topic = .orderCreated → r' ∈ f.events .order := by
    intro r' hr' htopic
    rw [events_setOrders, mem_events_emit] at hr'
    rcases hr' with hr' | ⟨-, rfl⟩
    · exact hr'
    · simp [he.topic] at htopic
  refine ⟨⟨hkeyed.saga, hkeyed.inj, hkeyed.text, hkeyed.marks⟩, ?_, fun r' hr' htopic =>
    h.created_of hkept (hmem r' hr' htopic) htopic, fun v hv => ?_, fun v hv => ?_, ?_,
    fun r' hr' htopic v hv => ?_, (Step.cancel hr hok hc he).saga_inv h⟩
  · refine h.topics_emit .order he.saga rfl (fun v hv => by rw [hsaga, if_neg hv])
      fun svc' => ?_
    rw [hsaga, if_pos rfl, Saga.topics_apply (by simp [Facts.saga, hr.order]), he.topic]
    simp [hc]
  · exact h.reserved_of hkept rfl (hverdict v ▸ hv)
  · exact h.unreserved v (hverdict v ▸ hv)
  · intro r' hr' hm v hv
    rcases committed_emit.mp hr' with hr' | rfl
    · exact h.refunds r' hr' hm v hv
    · exact absurd hm (h.toKeyed.unmarked he .payment _)
  · rw [hverdict]
    exact h.decided r' (hmem r' hr' htopic) htopic v hv

theorem charge (h : f.Consistent) {r : Record} {u : Uuid} {p : PaymentService.Payment}
    {payments : Table PaymentService.Payment PaymentService.Payment.sagaId} {e : Record}
    {topic : Topic} (hr : r ∈ f.events .order) (htopic : r.topic = .orderCreated)
    (hu : r.saga = some u) (hp : p.sagaId = u) (hins : f.payments.insert p = some payments)
    (he : f.New e u topic)
    (hst : p.status = .processed ∧ topic = .paymentProcessed ∨
      p.status = .failed ∧ topic = .paymentFailed) :
    ((f.emit .payment e).setPayments payments).Consistent := by
  have hsaga := saga_charge h.toKeyed hins he
  have hkeyed := h.toKeyed.emit he .payment
  have hnone : (f.saga u).payment = none := by
    simp [Facts.saga, ← hp, (Table.insert_eq_some.mp hins).1]
  have hverdict : ∀ v, (((f.emit .payment e).setPayments payments).saga v).verdict =
      (f.saga v).verdict := by
    intro v
    rw [hsaga]
    split_ifs <;> rfl
  refine ⟨⟨hkeyed.saga, hkeyed.inj, hkeyed.text, hkeyed.marks⟩, ?_, h.created, fun v hv => ?_,
    fun v hv => ?_, ?_, fun r' hr' htopic' v hv => ?_,
    (Step.charge hr htopic hu hp hins he hst).saga_inv h⟩
  · refine h.topics_emit .payment he.saga rfl
      (fun v hv => by rw [hsaga, if_neg fun hv' => hv (hv'.trans hp)]) fun svc' => ?_
    rw [hsaga, if_pos hp.symm, he.topic]
    rcases hst with ⟨hst, rfl⟩ | ⟨hst, rfl⟩ <;> cases svc' <;> simp [Saga.topics, hst, hnone]
  · exact h.reserved v (hverdict v ▸ hv)
  · exact h.unreserved v (hverdict v ▸ hv)
  · intro r' hr' hm v hv
    rcases committed_emit.mp hr' with hr' | rfl
    · have hrefunded := h.refunds r' hr' hm v hv
      rw [hsaga, if_neg]
      · exact hrefunded
      · rintro rfl
        simp [hp, hnone] at hrefunded
    · exact absurd hm (h.toKeyed.unmarked he .payment _)
  · rw [hverdict]
    exact h.decided r' hr' htopic' v hv

/-- A refused saga that is not captured any more has been refunded. -/
theorem refunded_of_committed (h : f.Consistent) {r : Record} {u : Uuid} (hr : f.Committed r)
    (htopic : r.topic = .inventoryReservationFailed) (hu : r.saga = some u)
    (hst : (f.saga u).payment ≠ some .processed) : (f.saga u).payment = some .refunded := by
  have hv := h.refused_of_committed hr htopic hu
  exact ((h.inv u).captured (by simp [hv])).resolve_left hst

theorem refund (h : f.Consistent) {r : Record} {u : Uuid} {e : Record} (hr : f.Committed r)
    (htopic : r.topic = .inventoryReservationFailed) (hu : r.saga = some u)
    (hst : (f.saga u).payment = some .processed) (he : f.New e u .paymentRefunded) :
    (((f.mark .payment r.idem PaymentService.refundConsumer).emit .payment e).setPayments
      (PaymentService.setRefunded f.payments u)).Consistent := by
  have hsaga := saga_refund h.toKeyed hr hst he
  have hkeyed := (h.toKeyed.mark hr .payment PaymentService.refundConsumer).emit
    (he.mark _ _ _) .payment
  have hverdict : ∀ v, ((((f.mark .payment r.idem PaymentService.refundConsumer).emit .payment
      e).setPayments (PaymentService.setRefunded f.payments u)).saga v).verdict =
      (f.saga v).verdict := by
    intro v
    rw [hsaga]
    split_ifs with hv
    · rw [hv]
    · rfl
  refine ⟨⟨hkeyed.saga, hkeyed.inj, hkeyed.text, hkeyed.marks⟩, ?_, h.created, fun v hv => ?_,
    fun v hv => ?_, ?_, fun r' hr' htopic' v hv => ?_,
    (Step.refund hr htopic hu hst he).saga_inv h⟩
  · refine h.topics_emit .payment he.saga rfl (fun v hv => by rw [hsaga, if_neg hv])
      fun svc' => ?_
    rw [hsaga, if_pos rfl, he.topic]
    cases svc' <;> simp [Saga.topics, hst]
  · exact h.reserved v (hverdict v ▸ hv)
  · exact h.unreserved v (hverdict v ▸ hv)
  · intro r' hr' hm v hv
    rw [hsaga]
    rw [marks_setPayments, marks_emit] at hm
    rcases committed_emit.mp hr' with hr' | rfl
    · rcases mem_marks_mark.mp hm with ⟨-, hm⟩ | hm
      · obtain rfl := h.inj r' r hr' hr (Prod.mk.inj hm).1
        rw [hu, Option.some.injEq] at hv
        rw [if_pos hv.symm]
      · split_ifs
        · rfl
        · exact h.refunds r' hr' hm v hv
    · exact absurd hm ((h.toKeyed.mark hr .payment _).unmarked (he.mark _ _ _) .payment _)
  · rw [hverdict]
    exact h.decided r' hr' htopic' v hv

theorem skipRefund (h : f.Consistent) {r : Record} {u : Uuid} (hr : f.Committed r)
    (htopic : r.topic = .inventoryReservationFailed) (hu : r.saga = some u)
    (hst : (f.saga u).payment ≠ some .processed) :
    (f.mark .payment r.idem PaymentService.refundConsumer).Consistent := by
  have hsaga : ∀ v, (f.mark .payment r.idem PaymentService.refundConsumer).saga v = f.saga v :=
    saga_mark_of_ne Service.noConfusion _ _
  have hkeyed := h.toKeyed.mark hr .payment PaymentService.refundConsumer
  refine ⟨hkeyed, fun svc v => ?_, h.created, fun v hv => h.reserved v hv,
    fun v hv => h.unreserved v hv, ?_, h.decided, fun v => hsaga v ▸ h.inv v⟩
  · rw [hsaga]
    exact h.topics svc v
  · intro r' hr' hm v hv
    rw [hsaga]
    rcases mem_marks_mark.mp hm with ⟨-, hm⟩ | hm
    · obtain rfl := h.inj r' r hr' hr (Prod.mk.inj hm).1
      rw [hu, Option.some.injEq] at hv
      exact hv ▸ h.refunded_of_committed hr htopic hu hst
    · exact h.refunds r' hr' hm v hv

theorem ignore (h : f.Consistent) {r : Record} (hr : f.Committed r) :
    (f.mark .inventory r.idem InventoryService.consumerOrderCancelled).Consistent := by
  have hsaga : ∀ v, (f.mark .inventory r.idem InventoryService.consumerOrderCancelled).saga v =
      f.saga v := saga_mark_of_ne Service.noConfusion _ _
  have hkeyed := h.toKeyed.mark hr .inventory InventoryService.consumerOrderCancelled
  refine ⟨hkeyed, fun svc v => ?_, h.created, fun v hv => h.reserved v hv,
    fun v hv => h.unreserved v hv, h.refunds, fun r' hr' htopic v hv => ?_,
    fun v => hsaga v ▸ h.inv v⟩
  · rw [hsaga]
    exact h.topics svc v
  · rw [hsaga, mem_marks_mark, ← h.decided r' hr' htopic v hv, or_iff_right]
    rintro ⟨-, hm⟩
    exact absurd (Prod.mk.inj hm).2 (by decide)

/-- A verdict, with the reservations it leaves. -/
theorem decide (h : f.Consistent) {r : Record} {u : Uuid} {e : Record} {topic : Topic}
    {v₀ : Verdict} (hr : f.Undecided r u) (he : f.New e u topic)
    (htopic : topic = .inventoryReserved ∧ v₀ = .reserved ∨
      topic = .inventoryReservationFailed ∧ v₀ = .refused)
    {reservations : Table InventoryService.Reservation InventoryService.Reservation.sagaId}
    (hother : ∀ v, v ≠ u → reservations.find? v = f.reservations.find? v)
    (hreserved : v₀ = .reserved → ∃ o row, f.orders.find? u = some o ∧
      reservations.find? u = some row ∧ row.sku = o.sku ∧ row.quantity = o.quantity ∧
      row.status = .reserved)
    (hrefused : v₀ = .refused → reservations.find? u = none) :
    (((f.mark .inventory r.idem InventoryService.consumerReserve).emit .inventory
      e).setReservations reservations).Consistent := by
  have hnone := h.verdict_of_undecided hr
  have hcommitted : f.Committed r := ⟨_, hr.committed⟩
  have hsaga : ∀ v, (((f.mark .inventory r.idem InventoryService.consumerReserve).emit .inventory
      e).setReservations reservations).saga v =
      if v = u then { f.saga u with verdict := some v₀ } else f.saga v := by
    intro v
    rw [saga_setReservations, saga_decide h.toKeyed hcommitted (h.topics_of_undecided hr) he]
    rcases htopic with ⟨rfl, rfl⟩ | ⟨rfl, rfl⟩ <;> rfl
  have hkeyed := (h.toKeyed.mark hcommitted .inventory InventoryService.consumerReserve).emit
    (he.mark _ _ _) .inventory
  have hstep : Saga.Step (f.saga u) { f.saga u with verdict := some v₀ } :=
    Saga.Step.decide v₀ hr.captured hnone
  refine ⟨⟨hkeyed.saga, hkeyed.inj, hkeyed.text, hkeyed.marks⟩, ?_, h.created, fun v hv => ?_,
    fun v hv => ?_, ?_, fun r' hr' htopic' v hv => ?_, fun v => ?_⟩
  · refine h.topics_emit .inventory he.saga rfl (fun v hv => by rw [hsaga, if_neg hv])
      fun svc' => ?_
    rw [hsaga, if_pos rfl, he.topic]
    rcases htopic with ⟨rfl, rfl⟩ | ⟨rfl, rfl⟩ <;> cases svc' <;> simp [Saga.topics, hnone]
  · rw [hsaga] at hv
    split_ifs at hv with hvu
    · subst hvu
      exact hreserved (Option.some.inj hv)
    · obtain ⟨o, row, ho, hrow, hrest⟩ := h.reserved v hv
      exact ⟨o, row, ho, (hother v hvu).trans hrow, hrest⟩
  · rw [hsaga] at hv
    split_ifs at hv with hvu
    · subst hvu
      refine hrefused ?_
      cases v₀ with
      | reserved => exact absurd rfl hv
      | refused => rfl
    · exact (hother v hvu).trans (h.unreserved v hv)
  · intro r' hr' hm v hv
    have hpayment : ((((f.mark .inventory r.idem InventoryService.consumerReserve).emit .inventory
        e).setReservations reservations).saga v).payment = (f.saga v).payment := rfl
    rw [hpayment]
    rcases committed_emit.mp hr' with hr' | rfl
    · exact h.refunds r' hr' hm v hv
    · exact absurd hm (h.toKeyed.unmarked he .payment _)
  · rw [events_setReservations, mem_events_emit] at hr'
    have hr'' : r' ∈ f.events .order := hr'.resolve_right fun hs => absurd hs.1 (by decide)
    have hmark : (r'.idem, InventoryService.consumerReserve) ∈
        (((f.mark .inventory r.idem InventoryService.consumerReserve).emit .inventory
          e).setReservations reservations).marks .inventory ↔
        r' = r ∨ (r'.idem, InventoryService.consumerReserve) ∈ f.marks .inventory := by
      rw [marks_setReservations, marks_emit]
      refine mem_marks_mark.trans (or_congr_left ⟨fun hm => ?_, ?_⟩)
      · exact h.inj r' r ⟨_, hr''⟩ hcommitted (Prod.mk.inj hm.2).1
      · rintro rfl
        exact ⟨rfl, rfl⟩
    rw [hmark, hsaga]
    by_cases hvu : v = u
    · subst hvu
      have heq := h.unique ⟨_, hr''⟩ hcommitted hv hr.saga (htopic'.trans hr.topic.symm)
      simp [heq]
    · rw [if_neg hvu, ← h.decided r' hr'' htopic' v hv, or_iff_right]
      rintro rfl
      rw [hr.saga, Option.some.injEq] at hv
      exact hvu hv.symm
  · rw [hsaga]
    split_ifs
    · exact (h.inv u).step hstep
    · exact h.inv v

theorem step (h : f.Consistent) (hs : f.Step m f') : f'.Consistent := by
  cases hs with
  | create hins hst he hdata => exact h.create hins hst he hdata
  | apply hr hok hc => exact h.apply hr hok hc
  | cancel hr hok hc he => exact h.cancel hr hok hc he
  | charge hr htopic hu hp hins he hst => exact h.charge hr htopic hu hp hins he hst
  | refund hr htopic hu hst he => exact h.refund hr htopic hu hst he
  | skipRefund hr htopic hu hst => exact h.skipRefund hr htopic hu hst
  | refuse hr he =>
    have hnone := h.unreserved _ (by rw [h.verdict_of_undecided hr]; simp)
    exact h.decide hr he (Or.inr ⟨rfl, rfl⟩) (fun _ _ => rfl) (by simp) fun _ => hnone
  | @take r u e o newId hr ho he =>
    have hnone := h.unreserved u (by rw [h.verdict_of_undecided hr]; simp)
    have hfind : ∀ v, (InventoryService.upsertReservation f.reservations
        ⟨newId, u, o.sku, o.quantity, .reserved⟩).2.find? v =
        if v = u then some ⟨newId, u, o.sku, o.quantity, .reserved⟩ else f.reservations.find? v :=
      InventoryService.find?_upsertReservation hnone
    refine h.decide hr he (Or.inl ⟨rfl, rfl⟩) (fun v hv => by rw [hfind, if_neg hv])
      (fun _ => ⟨o, _, ho, by rw [hfind, if_pos rfl], rfl, rfl, rfl⟩) (by simp)
  | ignore hr htopic => exact h.ignore hr

end Consistent

/-! ## What stays -/

/-- Facts are only added to. -/
structure Extends (f f' : Facts) : Prop where
  events : ∀ svc, f.events svc ⊆ f'.events svc
  marks : ∀ svc, f.marks svc ⊆ f'.marks svc
  orders : f.OrdersKept f'
  published : ∀ u t, (f.saga u).Published t → (f'.saga u).Published t

theorem events_subset_emit (f : Facts) (svc : Service) (e : Record) (svc' : Service) :
    f.events svc' ⊆ (f.emit svc e).events svc' :=
  fun _ hr => mem_events_emit.mpr (Or.inl hr)

theorem marks_subset_mark (f : Facts) (svc : Service) (key consumer : String) (svc' : Service) :
    f.marks svc' ⊆ (f.mark svc key consumer).marks svc' :=
  fun _ hm => mem_marks_mark.mpr (Or.inr hm)

theorem Step.extends (hs : f.Step m f') (h : f.Consistent) : f.Extends f' := by
  have hpub : ∀ u t, (f.saga u).Published t → (f'.saga u).Published t := by
    intro u t ht
    rcases hs.refines h u with heq | hstep
    · rwa [heq]
    · exact hstep.published (h.inv u) ht
  cases hs with
  | create hins hst he hdata =>
    exact ⟨f.events_subset_emit _ _, fun _ _ hm => hm, ordersKept_of_insert hins, hpub⟩
  | apply hr hok hc =>
    exact ⟨fun _ _ hr => hr, f.marks_subset_mark _ _ _, ordersKept_setStatus rfl, hpub⟩
  | cancel hr hok hc he =>
    exact ⟨f.events_subset_emit _ _, f.marks_subset_mark _ _ _, ordersKept_setStatus rfl, hpub⟩
  | charge hr htopic hu hp hins he hst =>
    exact ⟨f.events_subset_emit _ _, fun _ _ hm => hm, ordersKept_of_eq rfl, hpub⟩
  | refund hr htopic hu hst he =>
    exact ⟨f.events_subset_emit _ _, f.marks_subset_mark _ _ _, ordersKept_of_eq rfl, hpub⟩
  | skipRefund hr htopic hu hst =>
    exact ⟨fun _ _ hr => hr, f.marks_subset_mark _ _ _, ordersKept_of_eq rfl, hpub⟩
  | refuse hr he =>
    exact ⟨f.events_subset_emit _ _, f.marks_subset_mark _ _ _, ordersKept_of_eq rfl, hpub⟩
  | take newId hr ho he =>
    exact ⟨f.events_subset_emit _ _, f.marks_subset_mark _ _ _, ordersKept_of_eq rfl, hpub⟩
  | ignore hr htopic =>
    exact ⟨fun _ _ hr => hr, f.marks_subset_mark _ _ _, ordersKept_of_eq rfl, hpub⟩

theorem Extends.refl (f : Facts) : f.Extends f :=
  ⟨fun _ _ hr => hr, fun _ _ hm => hm, ordersKept_of_eq rfl, fun _ _ ht => ht⟩

theorem Extends.committed (h : f.Extends f') {r : Record} (hr : f.Committed r) :
    f'.Committed r := by
  obtain ⟨svc, hr⟩ := hr
  exact ⟨svc, h.events svc hr⟩

/-- The service has processed the event : Payment knows an OrderCreated by its saga, and
every other event is known by its key. -/
def Processed (f : Facts) (svc : Service) (r : Record) : Prop :=
  match svc with
  | .order => (r.idem, OrderService.consumerName) ∈ f.marks .order
  | .payment =>
    if r.topic = .orderCreated then ∃ u, r.saga = some u ∧ (f.saga u).payment ≠ none
    else (r.idem, PaymentService.refundConsumer) ∈ f.marks .payment
  | .inventory => (r.idem, InventoryService.consumerOrderCancelled) ∈ f.marks .inventory

theorem Processed.congr {g : Facts} {svc : Service} {r : Record} (hp : f.Processed svc r)
    (hm : f.marks = g.marks)
    (hpay : ∀ u, (f.saga u).payment ≠ none → (g.saga u).payment ≠ none) : g.Processed svc r := by
  unfold Processed at hp ⊢
  rw [← hm]
  cases svc with
  | order => exact hp
  | inventory => exact hp
  | payment =>
    dsimp only at hp ⊢
    split_ifs at hp ⊢
    · obtain ⟨u, hu, hp⟩ := hp
      exact ⟨u, hu, hpay u hp⟩
    · exact hp

theorem Extends.processed (h : f.Extends f') {svc : Service} {r : Record}
    (hr : f.Processed svc r) : f'.Processed svc r := by
  cases svc with
  | order => exact h.marks .order hr
  | inventory => exact h.marks .inventory hr
  | payment =>
    unfold Processed at hr ⊢
    split_ifs at hr ⊢
    · obtain ⟨u, hu, hp⟩ := hr
      refine ⟨u, hu, ?_⟩
      have hpp := h.published u .paymentProcessed
      have hpf := h.published u .paymentFailed
      simp only [Saga.Published] at hpp hpf
      cases hst : (f.saga u).payment with
      | none => exact absurd hst hp
      | some st => cases st <;> simp_all <;> rcases hpp with hpp | hpp <;> simp [hpp]
    · exact h.marks .payment hr

/-- No service has processed a new event. -/
theorem New.unprocessed (h : f.Keyed) {e : Record} {u : Uuid} {topic : Topic}
    (he : f.New e u topic) (hpay : topic = .orderCreated → (f.saga u).payment = none)
    (svc : Service) : ¬f.Processed svc e := by
  intro hp
  cases svc with
  | order => exact h.unmarked he .order _ hp
  | inventory => exact h.unmarked he .inventory _ hp
  | payment =>
    unfold Processed at hp
    split_ifs at hp with htopic
    · obtain ⟨u', hu', hp⟩ := hp
      rw [Option.some.inj (hu'.symm.trans he.saga)] at hp
      exact hp (hpay (he.topic.symm.trans htopic))
    · exact h.unmarked he .payment _ hp

/-- A new mark processes a message of its own service and key, or none if it is not the
mark of a consumer. -/
theorem processed_mark {svc svc₀ : Service} {key consumer : String} {r : Record}
    (hp : (f.mark svc₀ key consumer).Processed svc r) :
    f.Processed svc r ∨ svc = svc₀ ∧ r.idem = key ∧
      consumer ∈ [OrderService.consumerName, PaymentService.refundConsumer,
        InventoryService.consumerOrderCancelled] := by
  have hmark : ∀ {c}, (r.idem, c) ∈ (f.mark svc₀ key consumer).marks svc →
      (r.idem, c) ∈ f.marks svc ∨ svc = svc₀ ∧ r.idem = key ∧ consumer = c := by
    intro c hm
    rcases mem_marks_mark.mp hm with ⟨hs, hm⟩ | hm
    · exact Or.inr ⟨hs, (Prod.mk.inj hm).1, (Prod.mk.inj hm).2.symm⟩
    · exact Or.inl hm
  cases svc with
  | order => exact (hmark hp).imp_right fun ⟨hs, hk, hc⟩ => ⟨hs, hk, by simp [hc]⟩
  | inventory => exact (hmark hp).imp_right fun ⟨hs, hk, hc⟩ => ⟨hs, hk, by simp [hc]⟩
  | payment =>
    unfold Processed at hp ⊢
    split_ifs at hp ⊢
    · exact Or.inl hp
    · exact (hmark hp).imp_right fun ⟨hs, hk, hc⟩ => ⟨hs, hk, by simp [hc]⟩

/-- The mark of a committed message processes this message. -/
theorem Consistent.processed_mark (h : f.Consistent) {svc svc₀ : Service} {r r₀ : Record}
    {consumer : String} (hr₀ : f.Committed r₀) (hr : f.Committed r)
    (hp : (f.mark svc₀ r₀.idem consumer).Processed svc r) :
    (f.Committed r ∧ f.Processed svc r) ∨ some (svc₀, r₀) = some (svc, r) := by
  rcases Facts.processed_mark hp with hp | ⟨rfl, hk, -⟩
  · exact Or.inl ⟨hr, hp⟩
  · exact Or.inr (by rw [h.inj r r₀ hr hr₀ hk])

/-- The payment of a saga processes its OrderCreated for Payment. -/
theorem Consistent.processed_charge (h : f.Consistent) {p : PaymentService.Payment}
    {payments : Table PaymentService.Payment PaymentService.Payment.sagaId} {e : Record}
    {u : Uuid} {topic : Topic} (hins : f.payments.insert p = some payments) (he : f.New e u topic)
    {svc : Service} {r r₀ : Record} (hr₀ : f.Committed r₀) (htopic : r₀.topic = .orderCreated)
    (hu : r₀.saga = some p.sagaId) (hr : r.topic = .orderCreated → f.Committed r)
    (hp : ((f.emit .payment e).setPayments payments).Processed svc r) :
    f.Processed svc r ∨ some (Service.payment, r₀) = some (svc, r) := by
  cases svc with
  | order => exact Or.inl hp
  | inventory => exact Or.inl hp
  | payment =>
    unfold Processed at hp ⊢
    split_ifs at hp ⊢ with ht
    · obtain ⟨v, hv, hp⟩ := hp
      rw [saga_charge h.toKeyed hins he] at hp
      split_ifs at hp with hvu
      · exact Or.inr (by rw [h.unique (hr ht) hr₀ (hvu ▸ hv) hu (ht.trans htopic.symm)])
      · exact Or.inl ⟨v, hv, hp⟩
    · exact Or.inl hp

/-- A transaction processes the message that it is the delivery of, and no other. -/
theorem Step.processed (hs : f.Step m f') (h : f.Consistent) {svc : Service} {r : Record}
    (hr : f'.Committed r) (hp : f'.Processed svc r) :
    (f.Committed r ∧ f.Processed svc r) ∨ m = some (svc, r) := by
  -- the event that it adds is not processed yet
  have hnew : ∀ {svc₀ r₀ consumer e u topic}, f.Committed r₀ → f.New e u topic →
      topic ≠ .orderCreated → (f.mark svc₀ r₀.idem consumer).Processed svc e → False := by
    intro svc₀ r₀ consumer e u topic hr₀ he htopic
    exact (he.mark svc₀ r₀.idem consumer).unprocessed (h.toKeyed.mark hr₀ svc₀ consumer)
      (fun ht => absurd ht htopic) svc
  -- the mark of a reservation is none of a consumer
  have hdecide : ∀ {r₀ e u topic}, f.Committed r₀ → f.New e u topic → topic ≠ .orderCreated →
      f.Committed r ∨ r = e →
      (f.mark .inventory r₀.idem InventoryService.consumerReserve).Processed svc r →
      (f.Committed r ∧ f.Processed svc r) ∨ none = some (svc, r) := by
    rintro r₀ e u topic hr₀ he htopic (hr | rfl) hp
    · rcases processed_mark hp with hp | ⟨-, -, hc⟩
      · exact Or.inl ⟨hr, hp⟩
      · exact absurd hc (by decide)
    · exact (hnew hr₀ he htopic hp).elim
  cases hs with
  | create hins hst he hdata =>
    have hp' : f.Processed svc r := hp.congr rfl fun _ hpay => hpay
    rcases committed_emit.mp hr with hr | rfl
    · exact Or.inl ⟨hr, hp'⟩
    · refine absurd hp' (he.unprocessed h.toKeyed (fun _ => ?_) svc)
      by_contra hpay
      refine (h.inv _).created hpay ?_
      simp [saga, (Table.insert_eq_some.mp hins).1]
  | apply hr₀ hok hc => exact h.processed_mark hr₀.committed hr (hp.congr rfl fun _ hpay => hpay)
  | cancel hr₀ hok hc he =>
    have hp' := hp.congr (g := f.mark .order _ OrderService.consumerName) rfl fun _ hpay => hpay
    rcases committed_emit.mp hr with hr | rfl
    · exact h.processed_mark hr₀.committed hr hp'
    · exact (hnew hr₀.committed he Topic.noConfusion hp').elim
  | @charge _ _ _ _ _ topic hr₀ htopic hu hpu hins he hst =>
    -- the event of the payment is no OrderCreated
    have hnot : topic ≠ .orderCreated := by
      rcases hst with ⟨-, rfl⟩ | ⟨-, rfl⟩ <;> exact Topic.noConfusion
    have hcommitted : r.topic = .orderCreated → f.Committed r := by
      refine fun ht => (committed_emit.mp hr).resolve_right ?_
      rintro rfl
      exact hnot (he.topic.symm.trans ht)
    rcases h.processed_charge hins he ⟨_, hr₀⟩ htopic (hpu ▸ hu) hcommitted hp with hp' | hm
    · rcases committed_emit.mp hr with hr | rfl
      · exact Or.inl ⟨hr, hp'⟩
      · exact absurd hp' (he.unprocessed h.toKeyed (fun ht => absurd ht hnot) svc)
    · exact Or.inr hm
  | refund hr₀ htopic hu hst he =>
    have hp' := hp.congr (g := f.mark .payment _ PaymentService.refundConsumer) rfl fun v hpay => by
      rw [saga_setPayments, PaymentService.find?_setRefunded] at hpay
      split_ifs at hpay with hv
      · subst hv
        simpa [saga, mark] using hpay
      · exact hpay
    rcases committed_emit.mp hr with hr | rfl
    · exact h.processed_mark hr₀ hr hp'
    · exact (hnew hr₀ he Topic.noConfusion hp').elim
  | skipRefund hr₀ htopic hu hst => exact h.processed_mark hr₀ hr hp
  | refuse hr₀ he =>
    exact hdecide ⟨_, hr₀.committed⟩ he Topic.noConfusion (committed_emit.mp hr)
      (hp.congr rfl fun _ hpay => hpay)
  | take newId hr₀ ho he =>
    exact hdecide ⟨_, hr₀.committed⟩ he Topic.noConfusion (committed_emit.mp hr)
      (hp.congr rfl fun _ hpay => hpay)
  | ignore hr₀ htopic => exact h.processed_mark hr₀ hr hp

/-- The request that Payment makes for an OrderCreated whose payment is captured. -/
structure Calls (f : Facts) (r : Record) (req : ReserveStockRequest) : Prop where
  committed : r ∈ f.events .order
  topic : r.topic = .orderCreated
  request : ∃ u o, r.saga = some u ∧ f.orders.find? u = some o ∧
    (f.saga u).Published .paymentProcessed ∧ req = ⟨r.value.sagaId, r.idem, o.sku, o.quantity⟩

theorem Extends.calls (h : f.Extends f') {r : Record} {req : ReserveStockRequest}
    (hr : f.Calls r req) : f'.Calls r req := by
  obtain ⟨u, o, hu, ho, hpub, hreq⟩ := hr.request
  obtain ⟨st, ho'⟩ := h.orders u o ho
  exact ⟨h.events .order hr.committed, hr.topic, u, _, hu, ho', h.published u _ hpub, hreq⟩

/-- A request carries the saga of its message. -/
theorem Calls.saga_eq {r : Record} {req : ReserveStockRequest} (h : f.Calls r req) :
    uuidIn req.sagaId = r.saga := by
  obtain ⟨u, o, -, -, -, rfl⟩ := h.request
  rfl

/-- Inventory has a verdict on the saga of the request. -/
def Decided (f : Facts) (req : ReserveStockRequest) : Prop :=
  ∃ u, uuidIn req.sagaId = some u ∧ (f.saga u).verdict ≠ none

theorem Extends.verdict (h : f.Extends f') {u : Uuid} (hv : (f.saga u).verdict ≠ none) :
    (f'.saga u).verdict ≠ none := by
  cases hverdict : (f.saga u).verdict with
  | none => exact absurd hverdict hv
  | some v =>
    cases v with
    | reserved =>
      have hpub : (f'.saga u).verdict = _ := h.published u .inventoryReserved hverdict
      simp [hpub]
    | refused =>
      have hpub : (f'.saga u).verdict = _ := h.published u .inventoryReservationFail hverdict
      simp [hpub]

theorem Extends.decided (h : f.Extends f') {req : ReserveStockRequest} (hd : f.Decided req) :
    f'.Decided req := by
  obtain ⟨u, hu, hv⟩ := hd
  exact ⟨u, hu, h.verdict hv⟩

end Facts

end Choreography
