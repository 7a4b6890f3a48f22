import Choreography.Facts
import Choreography.System

/-!
# The system refines the saga

`System.facts` reads the facts off the three databases. A step of the system leaves
them as they are or adds to them by one `Facts.Step` (`Inv.step_facts`), so each order
goes through the steps of a `Saga`.

`System.Inv` adds what is on its way : every message of a topic is a committed event, a
message counted as handled has been processed, and a request of ReserveStock was made
for a captured payment. It holds in every reachable state (`inv_run`). For each label
with a transaction there is one lemma that says what it can do under the invariant
(`step_createOrder`, `step_orderHandle`, `step_paymentHandle`, `step_serve`,
`step_inventoryHandle`).
-/

namespace Choreography

open PaymentService (PyText)

/-- The topics that a service subscribes to. -/
def Service.consumes : Service → List Topic
  | .order => OrderService.consumedTopics
  | .payment => PaymentService.consumedTopics
  | .inventory => InventoryService.consumedTopics

/-! ## The facts of a state -/

/-- The facts in three databases. -/
def factsOf (order : OrderService.Db) (payment : PaymentService.Db)
    (inventory : InventoryService.Db) : Facts where
  orders := order.orders
  payments := payment.payments
  reservations := inventory.reservations
  marks
    | .order => order.processed
    | .payment => payment.processed
    | .inventory => inventory.processed
  events
    | .order => order.events
    | .payment => payment.events
    | .inventory => inventory.events

section

variable {order order' : OrderService.Db} {payment payment' : PaymentService.Db}
  {inventory inventory' : InventoryService.Db} {key consumer : String} {e : Record}

theorem factsOf_order_emit (hp : order'.processed = order.processed)
    (he : order'.events = order.events ++ [e]) :
    factsOf order' payment inventory =
      ((factsOf order payment inventory).emit .order e).setOrders order'.orders := by
  refine Facts.ext rfl rfl rfl (funext fun svc => ?_) (funext fun svc => ?_)
  · cases svc <;> simp [factsOf, Facts.emit, Facts.setOrders, hp]
  · cases svc <;> simp [factsOf, Facts.emit, Facts.setOrders, he]

theorem factsOf_order_mark (hp : order'.processed = (key, consumer) :: order.processed)
    (he : order'.events = order.events) :
    factsOf order' payment inventory =
      ((factsOf order payment inventory).mark .order key consumer).setOrders order'.orders := by
  refine Facts.ext rfl rfl rfl (funext fun svc => ?_) (funext fun svc => ?_)
  · cases svc <;> simp [factsOf, Facts.mark, Facts.setOrders, hp]
  · cases svc <;> simp [factsOf, Facts.mark, Facts.setOrders, he]

theorem factsOf_order_mark_emit (hp : order'.processed = (key, consumer) :: order.processed)
    (he : order'.events = order.events ++ [e]) :
    factsOf order' payment inventory =
      (((factsOf order payment inventory).mark .order key consumer).emit .order e).setOrders
        order'.orders := by
  refine Facts.ext rfl rfl rfl (funext fun svc => ?_) (funext fun svc => ?_)
  · cases svc <;> simp [factsOf, Facts.mark, Facts.emit, Facts.setOrders, hp]
  · cases svc <;> simp [factsOf, Facts.mark, Facts.emit, Facts.setOrders, he]

theorem factsOf_payment_emit (hp : payment'.processed = payment.processed)
    (he : payment'.events = payment.events ++ [e]) :
    factsOf order payment' inventory =
      ((factsOf order payment inventory).emit .payment e).setPayments payment'.payments := by
  refine Facts.ext rfl rfl rfl (funext fun svc => ?_) (funext fun svc => ?_)
  · cases svc <;> simp [factsOf, Facts.emit, Facts.setPayments, hp]
  · cases svc <;> simp [factsOf, Facts.emit, Facts.setPayments, he]

theorem factsOf_payment_mark (hp : payment'.processed = (key, consumer) :: payment.processed)
    (hrows : payment'.payments = payment.payments) (he : payment'.events = payment.events) :
    factsOf order payment' inventory =
      (factsOf order payment inventory).mark .payment key consumer := by
  refine Facts.ext rfl hrows rfl (funext fun svc => ?_) (funext fun svc => ?_)
  · cases svc <;> simp [factsOf, Facts.mark, hp]
  · cases svc <;> simp [factsOf, Facts.mark, he]

theorem factsOf_payment_mark_emit (hp : payment'.processed = (key, consumer) :: payment.processed)
    (he : payment'.events = payment.events ++ [e]) :
    factsOf order payment' inventory =
      (((factsOf order payment inventory).mark .payment key consumer).emit .payment
        e).setPayments payment'.payments := by
  refine Facts.ext rfl rfl rfl (funext fun svc => ?_) (funext fun svc => ?_)
  · cases svc <;> simp [factsOf, Facts.mark, Facts.emit, Facts.setPayments, hp]
  · cases svc <;> simp [factsOf, Facts.mark, Facts.emit, Facts.setPayments, he]

theorem factsOf_inventory_mark (hp : inventory'.processed = (key, consumer) :: inventory.processed)
    (hrows : inventory'.reservations = inventory.reservations)
    (he : inventory'.events = inventory.events) :
    factsOf order payment inventory' =
      (factsOf order payment inventory).mark .inventory key consumer := by
  refine Facts.ext rfl rfl hrows (funext fun svc => ?_) (funext fun svc => ?_)
  · cases svc <;> simp [factsOf, Facts.mark, hp]
  · cases svc <;> simp [factsOf, Facts.mark, he]

theorem factsOf_inventory_mark_emit
    (hp : inventory'.processed = (key, consumer) :: inventory.processed)
    (he : inventory'.events = inventory.events ++ [e]) :
    factsOf order payment inventory' =
      (((factsOf order payment inventory).mark .inventory key consumer).emit .inventory
        e).setReservations inventory'.reservations := by
  refine Facts.ext rfl rfl rfl (funext fun svc => ?_) (funext fun svc => ?_)
  · cases svc <;> simp [factsOf, Facts.mark, Facts.emit, Facts.setReservations, hp]
  · cases svc <;> simp [factsOf, Facts.mark, Facts.emit, Facts.setReservations, he]

end

namespace System

/-- The facts of a state. -/
def facts (s : System) : Facts := factsOf s.order s.payment s.inventory

variable {s : System} {r : Record} {u : Uuid} {stamp : Stamp}

theorem mem_keys {k : String} : k ∈ s.keys ↔ ∃ r, s.facts.Committed r ∧ r.idem = k := by
  simp only [keys, List.map_append, List.mem_append, List.mem_map, Facts.Committed]
  constructor
  · rintro ((⟨r, hr, hk⟩ | ⟨r, hr, hk⟩) | ⟨r, hr, hk⟩)
    · exact ⟨r, ⟨.order, hr⟩, hk⟩
    · exact ⟨r, ⟨.payment, hr⟩, hk⟩
    · exact ⟨r, ⟨.inventory, hr⟩, hk⟩
  · rintro ⟨r, ⟨svc, hr⟩, hk⟩
    cases svc with
    | order => exact Or.inl (Or.inl ⟨r, hr, hk⟩)
    | payment => exact Or.inl (Or.inr ⟨r, hr, hk⟩)
    | inventory => exact Or.inr ⟨r, hr, hk⟩

/-- An event with a fresh stamp is new. -/
theorem Fresh.new {svc : Service} (h : s.Fresh svc stamp) {e : Record}
    (hk : e.idem = stamp.idempotencyKey) (hu : e.saga = some u) : s.facts.New e u e.topic where
  topic := rfl
  saga := hu
  key r hr hkey := h.1 (mem_keys.mpr ⟨r, hr, hkey.trans hk⟩)
  text := by rw [hk]; exact stamp.hasNul_idempotencyKey

theorem mem_events_iff {svc : Service} : r ∈ s.facts.events svc ↔ r ∈ eventsOf (s.outbox svc) := by
  cases svc <;> rfl

theorem facts_setOutbox {svc : Service} {ob : Outbox} (h : eventsOf ob = eventsOf (s.outbox svc)) :
    (s.setOutbox svc ob).facts = s.facts := by
  refine Facts.ext ?_ ?_ ?_ (funext fun svc' => ?_) (funext fun svc' => ?_)
  · cases svc <;> rfl
  · cases svc <;> rfl
  · cases svc <;> rfl
  · cases svc <;> cases svc' <;> rfl
  · cases svc <;> cases svc' <;> first | rfl | exact h

/-! ## What a transaction does -/

theorem step_of_createOrder {req : OrderService.CreateOrderRequest} {orderId : String}
    {db : OrderService.Db} (hf : s.Fresh .order stamp)
    (hok : OrderService.Server.createOrder s.order req orderId stamp = .ok db) :
    s.facts.Step none (factsOf db s.payment s.inventory) := by
  obtain ⟨-, u, hu, hins, hp, hb⟩ := OrderService.createOrder_eq_ok hok
  rw [factsOf_order_emit hp (eventsOf_insertOutbox hb)]
  exact Facts.Step.create hins rfl (hf.new rfl hu) rfl

/-- Order processes a message : the delivery fails, or the message was processed before,
both with the tables as they were; or it is processed now. No message is dropped. -/
theorem order_cases (h : s.facts.Consistent) (hr : s.facts.Committed r)
    (ht : r.topic ∈ OrderService.consumedTopics) (hf : s.Fresh .order stamp) :
    ((OrderService.handleEvent s.order r.topic (some r.value) stamp).db = s.order ∧
        ((OrderService.handleEvent s.order r.topic (some r.value) stamp).err ≠ none ∨
          s.facts.Processed .order r)) ∨
      ((OrderService.handleEvent s.order r.topic (some r.value) stamp).err = none ∧
        ¬s.facts.Processed .order r ∧
        s.facts.Step (some (.order, r))
          (factsOf (OrderService.handleEvent s.order r.topic (some r.value) stamp).db
            s.payment s.inventory) ∧
        s.facts.Applies (factsOf (OrderService.handleEvent s.order r.topic (some r.value) stamp).db
          s.payment s.inventory) r ∧
        (factsOf (OrderService.handleEvent s.order r.topic (some r.value) stamp).db
          s.payment s.inventory).Processed .order r) := by
  obtain ⟨t, htr⟩ : ∃ t, OrderService.topicTrigger r.topic = some t := by
    cases hrt : r.topic <;> simp_all [OrderService.consumedTopics, OrderService.topicTrigger]
  obtain ⟨u, hu⟩ := h.saga r hr
  have hpub : (s.facts.saga u).Published t :=
    h.published_iff.mpr ⟨r, hr, hu, OrderService.topicTrigger_eq_some.mp htr⟩
  rcases OrderService.handleEvent_cases s.order htr r.value stamp with ⟨hdb, herr⟩ | ⟨hdb, hm⟩ |
    ⟨hdb, hdrop⟩ | ⟨herr, u', o, ha⟩
  · exact Or.inl ⟨hdb, Or.inl herr⟩
  · exact Or.inl ⟨hdb, Or.inr hm⟩
  · exfalso
    rcases hdrop with ⟨u', hu', hnone⟩ | ⟨hfresh, u', o, hu', ho, he⟩
    · have hu'' : u' = u := Option.some.inj (hu'.symm.trans hu)
      refine (h.inv u).order_of_published hpub ?_
      simp only [Facts.saga, facts, factsOf]
      rw [← hu'', hnone]
      rfl
    · have hu'' : u' = u := Option.some.inj (hu'.symm.trans hu)
      rw [hu''] at ho
      have hso : (s.facts.saga u).order = some o.status := by
        simp only [Facts.saga, facts, factsOf, ho, Option.map_some]
      have hnew : (s.facts.saga u).seen t = false := by
        rw [← Bool.not_eq_true, h.seen_iff hr hu (OrderService.topicTrigger_eq_some.mp htr)]
        exact hfresh
      exact OrderService.TransitionError.noConfusion ((h.inv u).premature hso hpub hnew he).1
  · have hu' : u' = u := Option.some.inj (ha.saga.symm.trans hu)
    subst hu'
    have hun : s.facts.Unprocessed r t u' o := ⟨hr, htr, hu, ha.fresh, ha.order⟩
    refine Or.inr ⟨herr, ha.fresh, ?_⟩
    have hob := ha.outbox
    split_ifs at hob with hc
    · have hnew :=
        hf.new (e := (OrderService.orderCancelledEvent stamp r.value.sagaId).record) rfl hu
      rw [factsOf_order_mark_emit ha.processed (eventsOf_insertOutbox hob), ha.orders]
      refine ⟨Facts.Step.cancel hun ha.accepted hc hnew, ?_, List.mem_cons_self⟩
      exact ⟨t, u', o, hun, ha.accepted, rfl, Facts.saga_cancel h.toKeyed hun hnew _⟩
    · rw [factsOf_order_mark ha.processed (congrArg eventsOf hob), ha.orders]
      refine ⟨Facts.Step.apply hun ha.accepted hc, ?_, List.mem_cons_self⟩
      exact ⟨t, u', o, hun, ha.accepted, rfl, Facts.saga_apply h.toKeyed hun _⟩

/-- What Payment's handler does after a transaction that takes `f` to `f'` : it calls
ReserveStock for a payment that it has just captured. -/
def Continues (f f' : Facts) (r : Record) : PaymentService.Next → Prop
  | .done => ∀ u, (f'.saga u).Published .paymentProcessed → (f.saga u).Published .paymentProcessed
  | .reserve req => f'.Calls r req ∧ ∀ u, (f'.saga u).Published .paymentProcessed →
      (f.saga u).Published .paymentProcessed ∨ r.saga = some u
  | .raise => False

theorem charge_cases (h : s.facts.Consistent) (hr : s.facts.Committed r)
    (htopic : r.topic = .orderCreated) (hf : s.Fresh .payment stamp) {py : PyText}
    {forceFailure : Bool} {hd : PaymentService.Handled}
    (hok : PaymentService.handleOrderCreated py forceFailure s.payment r.value.parsed stamp =
      .ok hd) :
    (hd.db = s.payment ∧ s.facts.Processed .payment r ∧ hd.next = .done) ∨
      (¬s.facts.Processed .payment r ∧
        s.facts.Step (some (.payment, r)) (factsOf s.order hd.db s.inventory) ∧
        (factsOf s.order hd.db s.inventory).Processed .payment r ∧
        Continues s.facts (factsOf s.order hd.db s.inventory) r hd.next) := by
  have hmem : r ∈ s.facts.events .order := by
    have := h.mem_events hr
    rwa [htopic] at this
  obtain ⟨u, hu⟩ := h.saga r hr
  obtain ⟨o, ho, hdata⟩ := h.created r hmem htopic u hu
  rw [PaymentService.handleOrderCreated_of_data hdata] at hok
  obtain ⟨u', hu', hcases⟩ := PaymentService.charge_cases hok
  obtain rfl : u' = u := Option.some.inj (hu'.symm.trans hu)
  have hproc : ∀ f : Facts, f.Processed .payment r ↔ (f.saga u').payment ≠ none := by
    intro f
    simp [Facts.Processed, htopic, hu]
  -- the new payment is the first of its saga, whatever its status
  have hcharged : ∀ {status : PaymentService.Status} {ob : OutboxInsert},
      PaymentService.Charged s.payment stamp u' o.amount.val status ob hd.db →
      ob.record.idem = stamp.idempotencyKey → ob.record.saga = some u' →
      (status = .processed ∧ ob.topic = .paymentProcessed ∨
        status = .failed ∧ ob.topic = .paymentFailed) →
      ¬s.facts.Processed .payment r ∧
        s.facts.Step (some (.payment, r)) (factsOf s.order hd.db s.inventory) ∧
        ∀ v, (factsOf s.order hd.db s.inventory).saga v =
          if v = u' then { s.facts.saga v with payment := some status } else s.facts.saga v := by
    intro status ob hc hk hs hst
    have hnone := (Table.insert_eq_some.mp hc.payments).1
    have hnew := hf.new hk hs
    rw [factsOf_payment_emit hc.processed (eventsOf_insertOutbox hc.outbox)]
    refine ⟨?_, ?_, ?_⟩
    · rw [hproc]
      simp [Facts.saga, facts, factsOf, hnone]
    · exact Facts.Step.charge hmem htopic hu rfl hc.payments hnew hst
    · exact Facts.saga_charge h.toKeyed hc.payments hnew
  rcases hcases with ⟨hdb, hnext, p, hp⟩ | ⟨_, ⟨⟩, ⟨reason, hc, hnext⟩ | ⟨hc, hnext⟩⟩
  · refine Or.inl ⟨hdb, ?_, hnext⟩
    rw [hproc]
    simp [Facts.saga, facts, factsOf, hp]
  · obtain ⟨hn, hstep, hsaga⟩ := hcharged hc rfl hu (Or.inr ⟨rfl, rfl⟩)
    refine Or.inr ⟨hn, hstep, ?_, ?_⟩
    · rw [hproc, hsaga, if_pos rfl]
      simp
    · rw [hnext]
      intro v hv
      rw [hsaga] at hv
      split_ifs at hv
      · simp [Saga.Published] at hv
      · exact hv
  · obtain ⟨hn, hstep, hsaga⟩ := hcharged hc rfl hu (Or.inl ⟨rfl, rfl⟩)
    refine Or.inr ⟨hn, hstep, ?_, ?_⟩
    · rw [hproc, hsaga, if_pos rfl]
      simp
    · rw [hnext, PaymentService.nextOf_str]
      refine ⟨⟨(hstep.extends h).events .order hmem, htopic, u', o, hu, ho, ?_, rfl⟩,
        fun v hv => ?_⟩
      · rw [hsaga, if_pos rfl]
        exact Or.inl rfl
      · rw [hsaga] at hv
        split_ifs at hv with hvu
        · exact Or.inr (hvu ▸ hu)
        · exact Or.inl hv

theorem compensation_cases (h : s.facts.Consistent) (hr : s.facts.Committed r)
    (htopic : r.topic = .inventoryReservationFailed) (hf : s.Fresh .payment stamp) {py : PyText}
    {hd : PaymentService.Handled}
    (hok : PaymentService.handleCompensation py s.payment r.value.parsed stamp = .ok hd) :
    (hd.db = s.payment ∧ s.facts.Processed .payment r ∧ hd.next = .done) ∨
      (¬s.facts.Processed .payment r ∧
        s.facts.Step (some (.payment, r)) (factsOf s.order hd.db s.inventory) ∧
        (factsOf s.order hd.db s.inventory).Processed .payment r ∧
        Continues s.facts (factsOf s.order hd.db s.inventory) r hd.next) := by
  have hproc : ∀ f : Facts, f.Processed .payment r ↔
      (r.idem, PaymentService.refundConsumer) ∈ f.marks .payment := by
    intro f
    simp [Facts.Processed, htopic]
  obtain ⟨hnext, hcases⟩ := PaymentService.handleCompensation_parsed_cases hok
  rw [hnext]
  rcases hcases with ⟨hdb, hm⟩ | ⟨u, amount, hu, hc, -⟩
  · exact Or.inl ⟨hdb, (hproc _).mpr hm, rfl⟩
  · have hmark : (factsOf s.order hd.db s.inventory).Processed .payment r := by
      rw [hproc]
      simp only [factsOf, hc.processed]
      exact List.mem_cons_self
    refine Or.inr ⟨fun hp => hc.fresh ((hproc _).mp hp), ?_⟩
    have htables := hc.tables
    split_ifs at htables with hst
    · obtain ⟨hrows, hb⟩ := htables
      have hnew := hf.new (e := (PaymentService.refundedEvent stamp r.value.sagaId amount).record)
        rfl hu
      have hfacts : factsOf s.order hd.db s.inventory =
          ((s.facts.mark .payment r.idem PaymentService.refundConsumer).emit .payment
            (PaymentService.refundedEvent stamp r.value.sagaId amount).record).setPayments
            (PaymentService.setRefunded s.facts.payments u) :=
        (factsOf_payment_mark_emit hc.processed (eventsOf_insertOutbox hb)).trans
          (by rw [hrows]; rfl)
      refine ⟨?_, hmark, fun v hv => ?_⟩
      · rw [hfacts]
        exact Facts.Step.refund hr htopic hu hst hnew
      · rw [hfacts] at hv
        by_cases hvu : v = u
        · rw [hvu]
          exact Or.inl hst
        · rwa [Facts.saga_refund h.toKeyed hr hst hnew, if_neg hvu] at hv
    · obtain ⟨hrows, hb⟩ := htables
      have hfacts : factsOf s.order hd.db s.inventory =
          s.facts.mark .payment r.idem PaymentService.refundConsumer :=
        factsOf_payment_mark hc.processed hrows (congrArg eventsOf hb)
      refine ⟨?_, hmark, fun v hv => ?_⟩
      · rw [hfacts]
        exact Facts.Step.skipRefund hr htopic hu hst
      · rwa [hfacts, Facts.saga_mark_of_ne Service.noConfusion] at hv

/-- Payment processes a message : it was processed before and nothing happens, or it is
processed now. -/
theorem payment_cases (h : s.facts.Consistent) (hr : s.facts.Committed r)
    (ht : r.topic ∈ PaymentService.consumedTopics) (hf : s.Fresh .payment stamp) {py : PyText}
    {forceFailure : Bool} {hd : PaymentService.Handled}
    (hok : PaymentService.handle py forceFailure s.payment r.topic r.value stamp = .ok hd) :
    (hd.db = s.payment ∧ s.facts.Processed .payment r ∧ hd.next = .done) ∨
      (¬s.facts.Processed .payment r ∧
        s.facts.Step (some (.payment, r)) (factsOf s.order hd.db s.inventory) ∧
        (factsOf s.order hd.db s.inventory).Processed .payment r ∧
        Continues s.facts (factsOf s.order hd.db s.inventory) r hd.next) := by
  have htopic : r.topic = .orderCreated ∨ r.topic = .inventoryReservationFailed := by
    simpa [PaymentService.consumedTopics] using ht
  rcases htopic with htopic | htopic
  · rw [htopic] at hok
    exact charge_cases h hr htopic hf hok
  · rw [htopic] at hok
    exact compensation_cases h hr htopic hf hok

/-- Inventory serves a request of Payment : the saga has its verdict already and nothing
happens, or it gets its verdict now. -/
theorem serve_cases (h : s.facts.Consistent) {req : ReserveStockRequest}
    (hc : s.facts.Calls r req) (hf : s.Fresh .inventory stamp) {newId : Uuid}
    {result : InventoryService.ReserveResult} {db : InventoryService.Db}
    (hok : InventoryService.Server.reserveStock s.inventory newId stamp req = .ok (result, db)) :
    (db = s.inventory ∨
        ¬s.facts.Decided req ∧ s.facts.Step none (factsOf s.order s.payment db)) ∧
      (factsOf s.order s.payment db).Decided req := by
  obtain ⟨u, o, hu, ho, hpub, rfl⟩ := hc.request
  have hdecided := h.decided r hc.committed hc.topic u hu
  have hiff : s.facts.Decided ⟨r.value.sagaId, r.idem, o.sku, o.quantity⟩ ↔
      (r.idem, InventoryService.consumerReserve) ∈ s.inventory.processed := by
    refine Iff.trans ⟨?_, fun hv => ⟨u, hu, hv⟩⟩ hdecided.symm
    rintro ⟨u', hu', hv⟩
    rwa [Option.some.inj (hu.symm.trans hu')]
  have hcases := InventoryService.reserveStock_cases hok
  dsimp only at hcases
  rw [cString_of_hasNul (h.text r ⟨.order, hc.committed⟩)] at hcases
  obtain ⟨hdb, hm⟩ | ⟨-, -, -, href⟩ | ⟨-, -, -, u', hu', -, ht⟩ := hcases
  · exact ⟨Or.inl hdb, hdb ▸ hiff.mpr hm⟩
  · have hun : s.facts.Undecided r u := ⟨hc.committed, hc.topic, hu, hpub, href.fresh⟩
    have hnew := hf.new (e := (InventoryService.failedEvent stamp r.value.sagaId o.sku o.quantity
      (InventoryService.failureReason o.sku) stamp.traceparent).record) rfl hu
    rw [factsOf_inventory_mark_emit href.processed (eventsOf_insertOutbox href.outbox),
      href.reservations]
    exact ⟨Or.inr ⟨fun hd => href.fresh (hiff.mp hd), Facts.Step.refuse hun hnew⟩, u, hu,
      h.verdict_emit hun hnew⟩
  · obtain rfl : u' = u := Option.some.inj (hu'.symm.trans hu)
    have hun : s.facts.Undecided r u' := ⟨hc.committed, hc.topic, hu, hpub, ht.fresh⟩
    have hnew := hf.new (e := (InventoryService.reservedEvent stamp r.value.sagaId o.sku o.quantity
      ⟨.reserved, result.reservationId, false⟩ stamp.traceparent).record) rfl hu
    rw [factsOf_inventory_mark_emit ht.processed (eventsOf_insertOutbox ht.outbox),
      ht.reservations]
    exact ⟨Or.inr ⟨fun hd => ht.fresh (hiff.mp hd), Facts.Step.take newId hun ho hnew⟩, u', hu,
      h.verdict_emit hun hnew⟩

/-- Inventory handles a cancellation : there is never a reservation to release. -/
theorem inventory_cases (h : s.facts.Consistent) (hr : s.facts.Committed r)
    (ht : r.topic ∈ InventoryService.consumedTopics) {outcome : InventoryService.ReleaseOutcome}
    {db : InventoryService.Db} {inTraceparent : String}
    (hok : InventoryService.handleOrderCancelled s.inventory stamp r.value inTraceparent =
      .ok (outcome, db)) :
    (db = s.inventory ∧ s.facts.Processed .inventory r) ∨
      (¬s.facts.Processed .inventory r ∧
        s.facts.Step (some (.inventory, r)) (factsOf s.order s.payment db) ∧
        (factsOf s.order s.payment db).Processed .inventory r ∧ db.stock = s.inventory.stock ∧
        db.reservations = s.inventory.reservations) := by
  have htopic : r.topic = .orderCancelled := by
    simpa [InventoryService.consumedTopics] using ht
  have hcases := InventoryService.handleOrderCancelled_cases hok
  rw [show cString r.value.idempotencyKey = r.idem from cString_of_hasNul (h.text r hr)] at hcases
  obtain ⟨-, hdb, hm⟩ | ⟨-, hfresh, -, rfl⟩ | ⟨u, row, ob, hu, hrel⟩ := hcases
  · exact Or.inl ⟨hdb, hm⟩
  · refine Or.inr ⟨hfresh, ?_, ?_, rfl, rfl⟩
    · have hfacts : factsOf s.order s.payment { s.inventory with processed :=
          (r.idem, InventoryService.consumerOrderCancelled) :: s.inventory.processed } =
          s.facts.mark .inventory r.idem InventoryService.consumerOrderCancelled :=
        factsOf_inventory_mark rfl rfl rfl
      exact hfacts ▸ Facts.Step.ignore hr htopic
    · exact List.mem_cons_self
  · have hv := (h.inv u).cancelled (h.cancelled_of_committed hr htopic hu)
    have hrow := hrel.row
    rw [show s.inventory.reservations.find? u = none from h.unreserved u hv] at hrow
    simp at hrow

/-! ## The invariant -/

/-- The requests of ReserveStock on their way, with the one that Payment is about to
make. -/
def pending (s : System) : List ReserveStockRequest :=
  match s.working with
  | some ⟨_, .reserve req⟩ => req :: s.requests
  | _ => s.requests

theorem mem_pending {req : ReserveStockRequest} :
    req ∈ s.pending ↔ (∃ r, s.working = some ⟨r, .reserve req⟩) ∨ req ∈ s.requests := by
  unfold pending
  split
  next r req' hw =>
    rw [List.mem_cons, hw]
    simp [eq_comm]
  next hw =>
    refine ⟨Or.inr, fun hp => hp.resolve_left ?_⟩
    rintro ⟨r, hr⟩
    exact hw r req hr

/-- A published message that the service subscribes to and has processed. -/
structure Done (log : List Record) (f : Facts) (svc : Service) (r : Record) : Prop where
  log : r ∈ log
  topic : r.topic ∈ svc.consumes
  processed : f.Processed svc r

/-- What is on its way, and what is handled, agrees with the facts `f`. -/
structure Control (s : System) (f : Facts) : Prop where
  log : ∀ r ∈ s.log, f.Committed r
  handled : ∀ svc r, (svc, r) ∈ s.handled → Done s.log f svc r
  working : ∀ h, s.working = some h → Done s.log f .payment h.record
  stage : ∀ r req, s.working = some ⟨r, .reserve req⟩ ∨ s.working = some ⟨r, .calling req⟩ →
    f.Calls r req ∧ (.payment, r) ∉ s.handled
  requests : ∀ req ∈ s.requests, ∃ r, f.Calls r req
  replies : ∀ req ∈ s.replies, f.Decided req

/-- What every reachable state keeps. -/
structure Inv (s : System) : Prop where
  consistent : s.facts.Consistent
  control : s.Control s.facts

theorem Done.mono {log : List Record} {f f' : Facts} (he : f.Extends f') {svc : Service}
    (h : Done log f svc r) : Done log f' svc r :=
  ⟨h.log, h.topic, he.processed h.processed⟩

theorem Control.mono {f f' : Facts} (h : s.Control f) (he : f.Extends f') : s.Control f' where
  log r hr := he.committed (h.log r hr)
  handled svc r hr := (h.handled svc r hr).mono he
  working hd hw := (h.working hd hw).mono he
  stage r req hw := ⟨he.calls (h.stage r req hw).1, (h.stage r req hw).2⟩
  requests req hreq := by
    obtain ⟨r, hr⟩ := h.requests req hreq
    exact ⟨r, he.calls hr⟩
  replies req hreq := he.decided (h.replies req hreq)

theorem inv_init (stock : InventoryService.Stock) : (init stock).Inv := by
  have hevents : ∀ svc, (init stock).facts.events svc = [] := by
    intro svc
    cases svc <;> rfl
  have hmarks : ∀ svc, (init stock).facts.marks svc = [] := by
    intro svc
    cases svc <;> rfl
  have hcommitted : ∀ r, ¬(init stock).facts.Committed r := by
    rintro r ⟨svc, hr⟩
    simp [hevents] at hr
  have hsaga : ∀ u, (init stock).facts.saga u = Saga.init := fun u => Saga.ext rfl rfl rfl rfl
  refine ⟨⟨⟨?_, ?_, ?_, ?_⟩, ?_, ?_, ?_, ?_, ?_, ?_, ?_⟩, ⟨?_, ?_, ?_, ?_, ?_, ?_⟩⟩
  · exact fun r hr => absurd hr (hcommitted r)
  · exact fun r _ hr => absurd hr (hcommitted r)
  · exact fun r hr => absurd hr (hcommitted r)
  · exact fun svc k c hm => by simp [hmarks] at hm
  · intro svc u
    rw [hevents, hsaga]
    cases svc <;> rfl
  · exact fun r hr => absurd ⟨_, hr⟩ (hcommitted r)
  · exact fun u hv => by simp [hsaga, Saga.init] at hv
  · exact fun u _ => rfl
  · exact fun r hr => absurd hr (hcommitted r)
  · exact fun r hr => absurd ⟨_, hr⟩ (hcommitted r)
  · exact fun u => hsaga u ▸ Saga.inv_init
  all_goals simp [init]

/-! ## What a step does -/

theorem step_createOrder (py : PyText) (s : System) (req : OrderService.CreateOrderRequest)
    (orderId : String) (stamp : Stamp) :
    step py s (.createOrder req orderId stamp) = s ∨
      ∃ db, s.Fresh .order stamp ∧
        OrderService.Server.createOrder s.order req orderId stamp = .ok db ∧
        step py s (.createOrder req orderId stamp) = { s with order := db } := by
  simp only [step]
  split_ifs with hf
  · split
    next db hok => exact Or.inr ⟨db, hf, hok, rfl⟩
    next => exact Or.inl rfl
  · exact Or.inl rfl

theorem step_publish (py : PyText) (s : System) (svc : Service) (id : Uuid) :
    step py s (.publish svc id) = s ∨ ∃ row, (s.outbox svc).find? id = some row ∧
      step py s (.publish svc id) = { s with log := s.log ++ [row.record] } := by
  simp only [step]
  split
  next row hrow => exact Or.inr ⟨row, hrow, rfl⟩
  next => exact Or.inl rfl

/-- The relays change nothing but the flags of their rows. -/
theorem step_mark (py : PyText) (s : System) {l : Label} {svc : Service} {id : Uuid}
    (hl : l = .markPublished svc id ∨ l = .markFailed svc id) :
    ∃ ob, eventsOf ob = eventsOf (s.outbox svc) ∧ step py s l = s.setOutbox svc ob := by
  rcases hl with rfl | rfl
  · exact ⟨_, eventsOf_markPublished _ _, rfl⟩
  · exact ⟨_, eventsOf_markFailed _ _, rfl⟩

/-- A database is written by the handlers of its service and by its relay. -/
theorem exists_mark_of_writes {l : Label} {svc : Service} (hw : l.writes = some svc)
    (hl : l.commits ≠ some svc) : ∃ id, l = .markPublished svc id ∨ l = .markFailed svc id := by
  cases l with
  | markPublished svc' id =>
    obtain rfl : svc' = svc := Option.some.inj hw
    exact ⟨id, Or.inl rfl⟩
  | markFailed svc' id =>
    obtain rfl : svc' = svc := Option.some.inj hw
    exact ⟨id, Or.inr rfl⟩
  | _ => exact absurd hw hl

/-- Only Order's handlers change its orders. -/
theorem order_frame (py : PyText) (s : System) {l : Label} (hl : l.commits ≠ some .order) :
    (step py s l).order.orders = s.order.orders := by
  by_cases hw : l.writes = some .order
  · obtain ⟨id, hmark⟩ := exists_mark_of_writes hw hl
    obtain ⟨ob, -, heq⟩ := step_mark py s hmark
    rw [heq]
    rfl
  · rw [(step_frame py s l).1 hw]

/-- Only Payment's handlers change its payments and its events. -/
theorem payment_frame (py : PyText) (s : System) {l : Label} (hl : l.commits ≠ some .payment) :
    (step py s l).payment.payments = s.payment.payments ∧
      (step py s l).payment.events = s.payment.events := by
  by_cases hw : l.writes = some .payment
  · obtain ⟨id, hmark⟩ := exists_mark_of_writes hw hl
    obtain ⟨ob, hob, heq⟩ := step_mark py s hmark
    rw [heq]
    exact ⟨rfl, hob⟩
  · rw [(step_frame py s l).2.1 hw]
    exact ⟨rfl, rfl⟩

/-- Only Inventory's handlers change its stock, its reservations and its events. -/
theorem inventory_frame (py : PyText) (s : System) {l : Label}
    (hl : l.commits ≠ some .inventory) :
    (step py s l).inventory.stock = s.inventory.stock ∧
      (step py s l).inventory.reservations = s.inventory.reservations ∧
      (step py s l).inventory.events = s.inventory.events := by
  by_cases hw : l.writes = some .inventory
  · obtain ⟨id, hmark⟩ := exists_mark_of_writes hw hl
    obtain ⟨ob, hob, heq⟩ := step_mark py s hmark
    rw [heq]
    exact ⟨rfl, rfl, hob⟩
  · rw [(step_frame py s l).2.2 hw]
    exact ⟨rfl, rfl, rfl⟩

theorem step_call (py : PyText) (s : System) :
    step py s .call = s ∨ ∃ r req, s.working = some ⟨r, .reserve req⟩ ∧ step py s .call =
      { s with working := some ⟨r, .calling req⟩, requests := req :: s.requests } := by
  simp only [step]
  split
  next r req hw => exact Or.inr ⟨r, req, hw, rfl⟩
  next => exact Or.inl rfl

theorem step_reply (py : PyText) (s : System) :
    step py s .reply = s ∨ ∃ r req, s.working = some ⟨r, .calling req⟩ ∧ req ∈ s.replies ∧
      step py s .reply = { s with working := some ⟨r, .finished⟩ } := by
  simp only [step]
  split
  next r req hw =>
    split_ifs with hreq
    · exact Or.inr ⟨r, req, hw, hreq, rfl⟩
    · exact Or.inl rfl
  next => exact Or.inl rfl

theorem step_fail (py : PyText) (s : System) :
    step py s .fail = s ∨ ∃ r req, s.working = some ⟨r, .calling req⟩ ∧
      step py s .fail = { s with working := some ⟨r, .finished⟩ } := by
  simp only [step]
  split
  next r req hw => exact Or.inr ⟨r, req, hw, rfl⟩
  next => exact Or.inl rfl

theorem step_commitOffset (py : PyText) (s : System) :
    step py s .commitOffset = s ∨ ∃ r, s.working = some ⟨r, .finished⟩ ∧
      step py s .commitOffset =
        { s with working := none, handled := (.payment, r) :: s.handled } := by
  simp only [step]
  split
  next r hw => exact Or.inr ⟨r, hw, rfl⟩
  next => exact Or.inl rfl

/-- A service processes a published message for the first time, and the facts become
`f'`. -/
structure Processes (s : System) (svc : Service) (r : Record) (f' : Facts) : Prop where
  log : r ∈ s.log
  topic : r.topic ∈ svc.consumes
  new : ¬s.facts.Processed svc r
  step : s.facts.Step (some (svc, r)) f'
  processed : f'.Processed svc r

theorem Processes.done {svc : Service} {f' : Facts} (h : s.Processes svc r f') :
    Done s.log f' svc r :=
  ⟨h.log, h.topic, h.processed⟩

theorem step_orderHandle (h : s.Inv) (py : PyText) (r : Record) (stamp : Stamp) (acked : Bool) :
    step py s (.orderHandle r stamp acked) = s ∨
      (Done s.log s.facts .order r ∧
        step py s (.orderHandle r stamp acked) = { s with handled := (.order, r) :: s.handled }) ∨
      ∃ db, s.Fresh .order stamp ∧
        (OrderService.handleEvent s.order r.topic (some r.value) stamp).db = db ∧
        (OrderService.handleEvent s.order r.topic (some r.value) stamp).err = none ∧
        s.Processes .order r (factsOf db s.payment s.inventory) ∧
        s.facts.Applies (factsOf db s.payment s.inventory) r ∧
        step py s (.orderHandle r stamp acked) =
          { s with
            order := db
            handled := if acked then (.order, r) :: s.handled else s.handled } := by
  by_cases hg : r ∈ s.log ∧ r.topic ∈ OrderService.consumedTopics ∧ s.Fresh .order stamp
  · have hstep : step py s (.orderHandle r stamp acked) =
        { s with
          order := (OrderService.handleEvent s.order r.topic (some r.value) stamp).db
          handled :=
            if (OrderService.handleEvent s.order r.topic (some r.value) stamp).err = none ∧ acked
            then (.order, r) :: s.handled else s.handled } := if_pos hg
    obtain ⟨hr, ht, hf⟩ := hg
    rw [hstep]
    rcases order_cases h.consistent (h.control.log r hr) ht hf with
      ⟨hdb, herr⟩ | ⟨herr, hn, hs, ha, hp⟩
    · rw [hdb]
      by_cases hack : (OrderService.handleEvent s.order r.topic (some r.value) stamp).err = none ∧
          acked = true
      · rw [if_pos hack]
        exact Or.inr (Or.inl ⟨⟨hr, ht, herr.resolve_left fun hne => hne hack.1⟩, rfl⟩)
      · rw [if_neg hack]
        exact Or.inl rfl
    · exact Or.inr (Or.inr ⟨_, hf, rfl, herr, ⟨hr, ht, hn, hs, hp⟩, ha, by simp [herr]⟩)
  · exact Or.inl (if_neg hg)

theorem step_paymentHandle (h : s.Inv) (py : PyText) (r : Record) (forceFailure : Bool)
    (stamp : Stamp) :
    step py s (.paymentHandle r forceFailure stamp) = s ∨
      (s.working = none ∧ Done s.log s.facts .payment r ∧
        step py s (.paymentHandle r forceFailure stamp) =
          { s with working := some ⟨r, .finished⟩ }) ∨
      ∃ hd, s.working = none ∧ s.Fresh .payment stamp ∧
        PaymentService.handle py forceFailure s.payment r.topic r.value stamp = .ok hd ∧
        s.Processes .payment r (factsOf s.order hd.db s.inventory) ∧
        Continues s.facts (factsOf s.order hd.db s.inventory) r hd.next ∧
        step py s (.paymentHandle r forceFailure stamp) =
          { s with payment := hd.db, working := goOn r hd.next } := by
  by_cases hg : r ∈ s.log ∧ r.topic ∈ PaymentService.consumedTopics ∧ s.working = none ∧
      s.Fresh .payment stamp
  · have hstep : step py s (.paymentHandle r forceFailure stamp) = _ := if_pos hg
    obtain ⟨hr, ht, hw, hf⟩ := hg
    cases hok : PaymentService.handle py forceFailure s.payment r.topic r.value stamp with
    | error e =>
      rw [hok] at hstep
      exact Or.inl hstep
    | ok hd =>
      rw [hok] at hstep
      rcases payment_cases h.consistent (h.control.log r hr) ht hf hok with
        ⟨hdb, hp, hnext⟩ | ⟨hn, hs, hp, hc⟩
      · simp only [hdb, hnext] at hstep
        exact Or.inr (Or.inl ⟨hw, ⟨hr, ht, hp⟩, hstep⟩)
      · exact Or.inr (Or.inr ⟨hd, hw, hf, rfl, ⟨hr, ht, hn, hs, hp⟩, hc, hstep⟩)
  · exact Or.inl (if_neg hg)

theorem step_serve (h : s.Inv) (py : PyText) (req : ReserveStockRequest) (newId : Uuid)
    (stamp : Stamp) :
    step py s (.serve req newId stamp) = s ∨
      (req ∈ s.requests ∧ s.Fresh .inventory stamp ∧
        (∃ e, InventoryService.Server.reserveStock s.inventory newId stamp req = .error e) ∧
        step py s (.serve req newId stamp) = { s with requests := s.requests.erase req }) ∨
      ∃ r db, req ∈ s.requests ∧ s.Fresh .inventory stamp ∧ s.facts.Calls r req ∧
        (∃ result, InventoryService.Server.reserveStock s.inventory newId stamp req =
          .ok (result, db)) ∧
        (db = s.inventory ∨
        ¬s.facts.Decided req ∧ s.facts.Step none (factsOf s.order s.payment db)) ∧
        (factsOf s.order s.payment db).Decided req ∧
        step py s (.serve req newId stamp) =
          { s with
            inventory := db
            requests := s.requests.erase req
            replies := req :: s.replies } := by
  by_cases hg : req ∈ s.requests ∧ s.Fresh .inventory stamp
  · have hstep : step py s (.serve req newId stamp) = _ := if_pos hg
    obtain ⟨r, hc⟩ := h.control.requests req hg.1
    cases hok : InventoryService.Server.reserveStock s.inventory newId stamp req with
    | error e =>
      rw [hok] at hstep
      exact Or.inr (Or.inl ⟨hg.1, hg.2, ⟨e, rfl⟩, hstep⟩)
    | ok p =>
      rw [hok] at hstep
      obtain ⟨hcases, hd⟩ := serve_cases h.consistent hc hg.2 hok
      exact Or.inr (Or.inr ⟨r, p.2, hg.1, hg.2, hc, ⟨p.1, rfl⟩, hcases, hd, hstep⟩)
  · exact Or.inl (if_neg hg)

theorem step_inventoryHandle (h : s.Inv) (py : PyText) (r : Record) (stamp : Stamp)
    (acked : Bool) :
    step py s (.inventoryHandle r stamp acked) = s ∨
      (Done s.log s.facts .inventory r ∧ step py s (.inventoryHandle r stamp acked) =
        { s with handled := (.inventory, r) :: s.handled }) ∨
      ∃ outcome db, s.Fresh .inventory stamp ∧
        InventoryService.handleOrderCancelled s.inventory stamp r.value r.traceparent =
          .ok (outcome, db) ∧
        s.Processes .inventory r (factsOf s.order s.payment db) ∧
        db.stock = s.inventory.stock ∧ db.reservations = s.inventory.reservations ∧
        step py s (.inventoryHandle r stamp acked) =
          { s with
            inventory := db
            handled := if acked then (.inventory, r) :: s.handled else s.handled } := by
  by_cases hg : r ∈ s.log ∧ r.topic ∈ InventoryService.consumedTopics ∧ s.Fresh .inventory stamp
  · have hstep : step py s (.inventoryHandle r stamp acked) = _ := if_pos hg
    obtain ⟨hr, ht, hf⟩ := hg
    cases hok : InventoryService.handleOrderCancelled s.inventory stamp r.value r.traceparent with
    | error e =>
      rw [hok] at hstep
      exact Or.inl hstep
    | ok p =>
      rw [hok] at hstep
      rcases inventory_cases h.consistent (h.control.log r hr) ht hok with
        ⟨hdb, hp⟩ | ⟨hn, hs, hp, hstock, hres⟩
      · simp only [hdb] at hstep
        cases acked with
        | true => exact Or.inr (Or.inl ⟨⟨hr, ht, hp⟩, hstep⟩)
        | false => exact Or.inl hstep
      · exact Or.inr (Or.inr ⟨p.1, p.2, hf, rfl, ⟨hr, ht, hn, hs, hp⟩, hstock, hres, hstep⟩)
  · exact Or.inl (if_neg hg)

/-! ## The facts after a step -/

/-- The marks of the relays are no facts. -/
theorem facts_mark (py : PyText) (s : System) {l : Label} {svc : Service} {id : Uuid}
    (hl : l = .markPublished svc id ∨ l = .markFailed svc id) :
    (step py s l).facts = s.facts := by
  obtain ⟨ob, hob, heq⟩ := step_mark py s hl
  rw [heq, facts_setOutbox hob]

/-- Every step of the system leaves the facts as they are, or is one step of them. -/
theorem Inv.step_facts (h : s.Inv) (py : PyText) (l : Label) :
    (step py s l).facts = s.facts ∨ ∃ m, s.facts.Step m (step py s l).facts := by
  cases l with
  | createOrder req orderId stamp =>
    rcases step_createOrder py s req orderId stamp with heq | ⟨db, hf, hok, heq⟩ <;> rw [heq]
    · exact Or.inl rfl
    · exact Or.inr ⟨_, step_of_createOrder hf hok⟩
  | publish svc id =>
    rcases step_publish py s svc id with heq | ⟨row, -, heq⟩ <;> rw [heq] <;> exact Or.inl rfl
  | markPublished svc id => exact Or.inl (facts_mark py s (Or.inl rfl))
  | markFailed svc id => exact Or.inl (facts_mark py s (Or.inr rfl))
  | orderHandle r stamp acked =>
    rcases step_orderHandle h py r stamp acked with heq | ⟨-, heq⟩ | ⟨db, -, -, -, hp, -, heq⟩ <;>
      rw [heq]
    · exact Or.inl rfl
    · exact Or.inl rfl
    · exact Or.inr ⟨_, hp.step⟩
  | paymentHandle r forceFailure stamp =>
    rcases step_paymentHandle h py r forceFailure stamp with heq | ⟨-, -, heq⟩ |
      ⟨hd, -, -, -, hp, -, heq⟩ <;> rw [heq]
    · exact Or.inl rfl
    · exact Or.inl rfl
    · exact Or.inr ⟨_, hp.step⟩
  | call => rcases step_call py s with heq | ⟨r, req, -, heq⟩ <;> rw [heq] <;> exact Or.inl rfl
  | serve req newId stamp =>
    rcases step_serve h py req newId stamp with heq | ⟨-, -, -, heq⟩ |
      ⟨r, db, -, -, -, -, hcases, -, heq⟩ <;> rw [heq]
    · exact Or.inl rfl
    · exact Or.inl rfl
    · rcases hcases with rfl | ⟨-, hs⟩
      · exact Or.inl rfl
      · exact Or.inr ⟨_, hs⟩
  | drop req => exact Or.inl rfl
  | reply =>
    rcases step_reply py s with heq | ⟨r, req, -, -, heq⟩ <;> rw [heq] <;> exact Or.inl rfl
  | fail => rcases step_fail py s with heq | ⟨r, req, -, heq⟩ <;> rw [heq] <;> exact Or.inl rfl
  | commitOffset =>
    rcases step_commitOffset py s with heq | ⟨r, -, heq⟩ <;> rw [heq] <;> exact Or.inl rfl
  | crash => exact Or.inl rfl
  | inventoryHandle r stamp acked =>
    rcases step_inventoryHandle h py r stamp acked with heq | ⟨-, heq⟩ |
      ⟨outcome, db, -, -, hp, -, -, heq⟩ <;> rw [heq]
    · exact Or.inl rfl
    · exact Or.inl rfl
    · exact Or.inr ⟨_, hp.step⟩

theorem Inv.step_extends (h : s.Inv) (py : PyText) (l : Label) :
    s.facts.Extends (System.step py s l).facts := by
  rcases h.step_facts py l with heq | ⟨m, hs⟩
  · rw [heq]
    exact Facts.Extends.refl _
  · exact hs.extends h.consistent

/-! ## The invariant holds -/

namespace Control

variable {f f' : Facts}

theorem setOutbox (h : s.Control f) (svc : Service) (ob : Outbox) :
    (s.setOutbox svc ob).Control f := by
  cases svc <;> exact { h with }

theorem publish (h : s.Control f) (hr : f.Committed r) :
    Control { s with log := s.log ++ [r] } f := by
  have hmem : ∀ {r'}, r' ∈ s.log → r' ∈ s.log ++ [r] := fun hr' => List.mem_append_left _ hr'
  refine { h with log := fun r' hr' => ?_, handled := fun svc r' hr' => ?_,
                  working := fun hd hw => ?_ }
  · rcases List.mem_append.mp hr' with hr' | hr'
    · exact h.log r' hr'
    · rw [List.mem_singleton.mp hr']
      exact hr
  · obtain ⟨h1, h2, h3⟩ := h.handled svc r' hr'
    exact ⟨hmem h1, h2, h3⟩
  · obtain ⟨h1, h2, h3⟩ := h.working hd hw
    exact ⟨hmem h1, h2, h3⟩

/-- Order or Inventory has handled a message. -/
theorem handle (h : s.Control f) {svc : Service} (hd : Done s.log f svc r) (hne : svc ≠ .payment)
    (acked : Bool) :
    Control { s with handled := if acked then (svc, r) :: s.handled else s.handled } f := by
  cases acked with
  | false => exact { h with }
  | true =>
  refine { h with handled := fun svc' r' hm => ?_, stage := fun r' req hw => ?_ }
  · rcases List.mem_cons.mp hm with heq | hm
    · obtain ⟨rfl, rfl⟩ := Prod.mk.inj heq
      exact hd
    · exact h.handled svc' r' hm
  · refine ⟨(h.stage r' req hw).1, fun hm => ?_⟩
    rcases List.mem_cons.mp hm with heq | hm
    · exact hne (Prod.mk.inj heq).1.symm
    · exact (h.stage r' req hw).2 hm

/-- Payment has committed its transaction for a new message. -/
theorem start (h : s.Control f') (hc : s.Control f) {next : PaymentService.Next}
    (hd : Done s.log f' .payment r) (hnew : ¬f.Processed .payment r)
    (hnext : Continues f f' r next) : Control { s with working := goOn r next } f' := by
  refine { h with working := fun hd' hw => ?_, stage := fun r' req hw => ?_ }
  · cases next with
    | done => exact Option.some.inj hw ▸ hd
    | reserve req => exact Option.some.inj hw ▸ hd
    | raise => exact hnext.elim
  · cases next with
    | done => simp [goOn] at hw
    | reserve req' =>
      simp only [goOn, Option.some.injEq, Handler.mk.injEq, Stage.reserve.injEq, reduceCtorEq,
        and_false, or_false] at hw
      obtain ⟨rfl, rfl⟩ := hw
      exact ⟨hnext.1, fun hm => hnew (hc.handled _ _ hm).processed⟩
    | raise => exact hnext.elim

/-- Payment's handler is about to return. -/
theorem finish (h : s.Control f) (hd : Done s.log f .payment r) :
    Control { s with working := some ⟨r, .finished⟩ } f := by
  refine { h with working := fun hd' hw => ?_, stage := fun r' req hw => ?_ }
  · exact Option.some.inj hw ▸ hd
  · simp at hw

theorem call (h : s.Control f) {req : ReserveStockRequest}
    (hw : s.working = some ⟨r, .reserve req⟩) :
    Control { s with working := some ⟨r, .calling req⟩, requests := req :: s.requests } f := by
  have hd : Done s.log f .payment r := h.working _ hw
  refine { h with working := fun hd' hw' => ?_, stage := fun r' req' hw' => ?_,
                  requests := fun req' hreq => ?_ }
  · exact Option.some.inj hw' ▸ hd
  · simp only [Option.some.injEq, Handler.mk.injEq, Stage.calling.injEq, reduceCtorEq,
      and_false, false_or] at hw'
    obtain ⟨rfl, rfl⟩ := hw'
    exact h.stage r req (Or.inl hw)
  · rcases List.mem_cons.mp hreq with rfl | hreq
    · exact ⟨r, (h.stage r req' (Or.inl hw)).1⟩
    · exact h.requests req' hreq

theorem commitOffset (h : s.Control f) (hw : s.working = some ⟨r, .finished⟩) :
    Control { s with working := none, handled := (.payment, r) :: s.handled } f := by
  refine { h with handled := fun svc r' hm => ?_, working := by simp, stage := by simp }
  rcases List.mem_cons.mp hm with heq | hm
  · obtain ⟨rfl, rfl⟩ := Prod.mk.inj heq
    exact h.working _ hw
  · exact h.handled svc r' hm

theorem erase (h : s.Control f) (req : ReserveStockRequest) :
    Control { s with requests := s.requests.erase req } f :=
  { h with requests := fun req' hm => h.requests req' (List.mem_of_mem_erase hm) }

/-- Inventory answers a request. -/
theorem answer (h : s.Control f) {req : ReserveStockRequest} (hd : f.Decided req) :
    Control { s with requests := s.requests.erase req, replies := req :: s.replies } f := by
  refine { h.erase req with replies := fun req' hm => ?_ }
  rcases List.mem_cons.mp hm with rfl | hm
  · exact hd
  · exact h.replies req' hm

end Control

theorem Inv.step (h : s.Inv) (py : PyText) (l : Label) : (System.step py s l).Inv := by
  have hext := h.step_extends py l
  have hc := h.control.mono hext
  refine ⟨?_, ?_⟩
  · rcases h.step_facts py l with heq | ⟨m, hs⟩
    · rw [heq]
      exact h.consistent
    · exact h.consistent.step hs
  have hmark : ∀ {svc id}, l = .markPublished svc id ∨ l = .markFailed svc id →
      (System.step py s l).Control (System.step py s l).facts := by
    intro svc id hl
    obtain ⟨ob, -, heq⟩ := step_mark py s hl
    rw [heq] at hc ⊢
    exact hc.setOutbox svc ob
  cases l with
  | createOrder req orderId stamp =>
    rcases step_createOrder py s req orderId stamp with heq | ⟨db, -, -, heq⟩ <;> rw [heq] at hc ⊢
    · exact hc
    · exact { hc with }
  | publish svc id =>
    rcases step_publish py s svc id with heq | ⟨row, hrow, heq⟩ <;> rw [heq] at hc ⊢
    · exact hc
    · refine hc.publish ⟨svc, ?_⟩
      exact mem_events_iff.mpr (List.mem_map_of_mem (Table.find?_eq_some.mp hrow).1)
  | markPublished svc id => exact hmark (Or.inl rfl)
  | markFailed svc id => exact hmark (Or.inr rfl)
  | orderHandle r stamp acked =>
    rcases step_orderHandle h py r stamp acked with heq | ⟨hd, heq⟩ | ⟨db, -, -, -, hp, -, heq⟩ <;>
      rw [heq] at hc ⊢
    · exact hc
    · exact hc.handle hd Service.noConfusion true
    · exact { hc.handle hp.done Service.noConfusion acked with }
  | paymentHandle r forceFailure stamp =>
    rcases step_paymentHandle h py r forceFailure stamp with heq | ⟨-, hd, heq⟩ |
      ⟨hd, -, -, -, hp, hnext, heq⟩ <;> rw [heq] at hc ⊢
    · exact hc
    · exact hc.finish hd
    · exact { hc.start h.control hp.done hp.new hnext with }
  | call =>
    rcases step_call py s with heq | ⟨r, req, hw, heq⟩ <;> rw [heq] at hc ⊢
    · exact hc
    · exact hc.call hw
  | serve req newId stamp =>
    rcases step_serve h py req newId stamp with heq | ⟨-, -, -, heq⟩ |
      ⟨r, db, -, -, -, -, -, hd, heq⟩ <;> rw [heq] at hc ⊢
    · exact hc
    · exact hc.erase req
    · exact { hc.answer hd with }
  | drop req => exact hc.erase req
  | reply =>
    rcases step_reply py s with heq | ⟨r, req, hw, -, heq⟩ <;> rw [heq] at hc ⊢
    · exact hc
    · exact hc.finish (hc.working _ hw)
  | fail =>
    rcases step_fail py s with heq | ⟨r, req, hw, heq⟩ <;> rw [heq] at hc ⊢
    · exact hc
    · exact hc.finish (hc.working _ hw)
  | commitOffset =>
    rcases step_commitOffset py s with heq | ⟨r, hw, heq⟩ <;> rw [heq] at hc ⊢
    · exact hc
    · exact hc.commitOffset hw
  | crash => exact { hc with working := by simp [System.step], stage := by simp [System.step] }
  | inventoryHandle r stamp acked =>
    rcases step_inventoryHandle h py r stamp acked with heq | ⟨hd, heq⟩ |
      ⟨outcome, db, -, -, hp, -, -, heq⟩ <;> rw [heq] at hc ⊢
    · exact hc
    · exact hc.handle hd Service.noConfusion true
    · exact { hc.handle hp.done Service.noConfusion acked with }

/-- The invariant holds in every reachable state. -/
theorem inv_run (py : PyText) (stock : InventoryService.Stock) (ls : List Label) :
    (runFrom (step py) (init stock) ls).Inv :=
  invariant_runFrom (fun _ l h => h.step py l) ls (inv_init stock)

/-- A step of the system does nothing to a saga, or takes it one step further. -/
theorem Inv.step_saga (h : s.Inv) (py : PyText) (l : Label) (u : Uuid) :
    (System.step py s l).facts.saga u = s.facts.saga u ∨
      Saga.Step (s.facts.saga u) ((System.step py s l).facts.saga u) := by
  rcases h.step_facts py l with heq | ⟨m, hs⟩
  · exact Or.inl (by rw [heq])
  · exact hs.refines h.consistent u

end System

end Choreography
