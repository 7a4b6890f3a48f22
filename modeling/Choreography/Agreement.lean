import Choreography.Refinement
import Choreography.Stock

/-!
# What the three services agree on

Facts about every reachable state of the composed system, read off the saga of one order
(`Inv.step_saga`).

A CONFIRMED order is paid for, for good, and holds the one reservation of its saga
(`confirmed_agreement`). An event that Order parks waits for another that is committed
and not yet handled, and no published event is dropped as an invalid transition
(`premature_awaits`). A CANCELLED order has its payment declined or refunded in every
state of a run exactly if the run never applies a refusal to a PENDING order whose payment
is captured (`compensated_throughout_iff`); such a run exists, since
`inventory.reservation_failed` may overtake `payment.processed`
(`not_compensated_overtaken`).
-/

namespace Choreography.System

open PaymentService (PyText noText)

variable {s : System} {u : Uuid}

/-! ## What the databases hold for a saga -/

def orderStatus (s : System) (u : Uuid) : Option OrderService.Status :=
  (s.order.orders.find? u).map OrderService.Order.status

def paymentStatus (s : System) (u : Uuid) : Option PaymentService.Status :=
  (s.payment.payments.find? u).map PaymentService.Payment.status

def reservationsOf (s : System) (u : Uuid) : List InventoryService.Reservation :=
  s.inventory.reservations.rows.filter fun r => r.sagaId = u

/-! ## Along a run -/

/-- A terminal order keeps its status. -/
theorem Inv.order_final (h : s.Inv) (py : PyText) {cur : OrderService.Status}
    (hfinal : cur.isTerminal = true) (ho : s.orderStatus u = some cur) (ls : List Label) :
    (runFrom (System.step py) s ls).orderStatus u = some cur := by
  refine (invariant_runFrom (I := fun s : System => s.Inv ∧ s.orderStatus u = some cur) ?_ ls
    ⟨h, ho⟩).2
  rintro s l ⟨hs, ho⟩
  refine ⟨hs.step py l, ?_⟩
  rcases hs.step_saga py l u with heq | hstep
  · exact (congrArg Saga.order heq).trans ho
  · exact hstep.order_final ho hfinal

/-- A payment that is declined or refunded keeps its status. -/
theorem Inv.payment_final (h : s.Inv) (py : PyText) {p : PaymentService.Status}
    (hfinal : p ≠ .processed) (hp : s.paymentStatus u = some p) (ls : List Label) :
    (runFrom (System.step py) s ls).paymentStatus u = some p := by
  refine (invariant_runFrom (I := fun s : System => s.Inv ∧ s.paymentStatus u = some p) ?_ ls
    ⟨h, hp⟩).2
  rintro s l ⟨hs, hp⟩
  refine ⟨hs.step py l, ?_⟩
  rcases hs.step_saga py l u with heq | hstep
  · exact (congrArg Saga.payment heq).trans hp
  · exact hstep.payment_final hp hfinal

/-! ## Confirmed orders -/

/-- A confirmed order has the one reservation of its saga, for what was ordered. -/
theorem Inv.reservation_of_confirmed (h : s.Inv) {o : OrderService.Order}
    (ho : s.order.orders.find? u = some o) (hst : o.status = .confirmed) :
    ∃ row, s.reservationsOf u = [row] ∧ row.status = .reserved ∧ row.sku = o.sku ∧
      row.quantity = o.quantity := by
  have hso : (s.facts.saga u).order = some .confirmed := by
    simp [Facts.saga, facts, factsOf, ho, hst]
  obtain ⟨o', row, ho', hrow, hsku, hq, hrst⟩ :=
    h.consistent.reserved u ((h.consistent.inv u).confirmed hso).2
  obtain rfl : o' = o := Option.some.inj (ho'.symm.trans ho)
  exact ⟨row, Table.filter_of_find? hrow, hrst, hsku, hq⟩

/-- In every reachable state, a CONFIRMED order has its payment PROCESSED, from then on
and with no other outcome before, and one reservation, RESERVED for its SKU and
quantity. -/
theorem confirmed_agreement (py : PyText) (stock : InventoryService.Stock) (ls : List Label) :
    ∀ o ∈ (runFrom (step py) (init stock) ls).order.orders.rows, o.status = .confirmed →
      (∀ after, (runFrom (step py) (init stock) (ls ++ after)).paymentStatus o.id =
        some .processed) ∧
      (∀ before, List.IsPrefix before ls →
        (runFrom (step py) (init stock) before).paymentStatus o.id ≠ some .failed ∧
        (runFrom (step py) (init stock) before).paymentStatus o.id ≠ some .refunded) ∧
      ∃ row, (runFrom (step py) (init stock) ls).reservationsOf o.id = [row] ∧
        row.status = .reserved ∧ row.sku = o.sku ∧ row.quantity = o.quantity := by
  intro o ho hst
  have hfind := Table.mem_iff_find?.mp ho
  have hconfirmed : (runFrom (step py) (init stock) ls).orderStatus o.id = some .confirmed := by
    simp [orderStatus, hfind, hst]
  have hafter : ∀ after,
      (runFrom (step py) (init stock) (ls ++ after)).paymentStatus o.id = some .processed := by
    intro after
    have hinv := inv_run py stock (ls ++ after)
    refine ((hinv.consistent.inv o.id).confirmed ?_).1
    rw [runFrom_append]
    exact (inv_run py stock ls).order_final py rfl hconfirmed after
  have hbefore : ∀ before, List.IsPrefix before ls → ∀ p, p ≠ PaymentService.Status.processed →
      (runFrom (step py) (init stock) before).paymentStatus o.id ≠ some p := by
    rintro before ⟨rest, rfl⟩ p hp hpay
    have hlast := (inv_run py stock before).payment_final py hp hpay rest
    have hproc := hafter []
    rw [List.append_nil, runFrom_append, hlast, Option.some.injEq] at hproc
    exact hp hproc
  refine ⟨hafter, fun before hb => ⟨?_, ?_⟩, ?_⟩
  · exact hbefore before hb _ PaymentService.Status.noConfusion
  · exact hbefore before hb _ PaymentService.Status.noConfusion
  · exact (inv_run py stock ls).reservation_of_confirmed hfind hst

open InventoryService (sagaA) in
/-- One order of `quantity` units, with the payment captured, Inventory's verdict given
and all events published. -/
def toVerdict (quantity : Int4) : List Label :=
  [.createOrder ⟨"customer", "SKU-1", quantity, .lit 10⟩ sagaA (.ofKey "k1" 1),
    .publish .order 1,
    .paymentHandle (OrderService.orderCreatedEvent (.ofKey "k1" 1) sagaA "customer" "SKU-1"
      quantity (.lit 10)).record false (.ofKey "k2" 2),
    .call,
    .serve ⟨sagaA, "k1", "SKU-1", quantity⟩ 7 (.ofKey "k3" 3),
    .reply,
    .commitOffset,
    .publish .payment 2,
    .publish .inventory 3]

/-- PaymentProcessed of the order. -/
def captured : Record :=
  (PaymentService.processedEvent (.ofKey "k2" 2) InventoryService.sagaA 10).record

/-- InventoryReserved of the order. -/
def granted (quantity : Int4) : Record :=
  (InventoryService.reservedEvent (.ofKey "k3" 3) InventoryService.sagaA "SKU-1" quantity
    ⟨.reserved, uuidOut 7, false⟩ "").record

/-- InventoryReservationFailed of the order. -/
def refused (quantity : Int4) : Record :=
  (InventoryService.failedEvent (.ofKey "k3" 3) InventoryService.sagaA "SKU-1" quantity
    "insufficient stock" "").record

/-- The order of three units is confirmed. -/
def toConfirmed : List Label :=
  toVerdict (.lit 3) ++ [.orderHandle captured (.ofKey "k4" 4) true,
    .orderHandle (granted (.lit 3)) (.ofKey "k4" 4) true]

theorem confirmed_agreement_three :
    ⟨10, "customer", "SKU-1", .lit 3, .lit 10, .confirmed⟩ ∈
        (runFrom (step noText) (init InventoryService.tenUnits) toConfirmed).order.orders.rows ∧
      ∃ row, (runFrom (step noText) (init InventoryService.tenUnits) toConfirmed).reservationsOf
        10 = [row] ∧ row.status = .reserved ∧ row.sku = "SKU-1" ∧ row.quantity = .lit 3 := by
  have hmem : ⟨10, "customer", "SKU-1", .lit 3, .lit 10, .confirmed⟩ ∈
      (runFrom (step noText) (init InventoryService.tenUnits) toConfirmed).order.orders.rows := by
    decide +kernel
  exact ⟨hmem, (confirmed_agreement noText InventoryService.tenUnits toConfirmed _ hmem rfl).2.2⟩

/-! ## Parked events -/

/-- The event `r'` of the saga `u` is committed, Order has not processed it, and Order can
apply it : the capture of a PENDING order, or the refusal of a PAYMENT_OK one. -/
structure Awaited (s : System) (u : Uuid) (r' : Record) : Prop where
  saga : r'.saga = some u
  unprocessed : (r'.idem, OrderService.consumerName) ∉ s.order.processed
  unhandled : (.order, r') ∉ s.handled
  committed : s.orderStatus u = some .pending ∧ r' ∈ s.payment.events ∧
      r'.topic = .paymentProcessed ∨
    s.orderStatus u = some .paymentOk ∧ r' ∈ s.inventory.events ∧
      r'.topic = .inventoryReservationFailed
  accepted : ∀ stamp, s.Fresh .order stamp →
    (OrderService.handleEvent s.order r'.topic (some r'.value) stamp).err = none

/-- A published fact that Order has not seen, and that its order can take, is awaited. -/
theorem Inv.awaited (h : s.Inv) {t : OrderService.Trigger} {o : OrderService.Order}
    (ho : s.order.orders.find? u = some o) (hpub : (s.facts.saga u).Published t)
    (hnew : (s.facts.saga u).seen t = false)
    (ht : o.status = .pending ∧ t = .paymentProcessed ∨
      o.status = .paymentOk ∧ t = .inventoryReservationFail) : ∃ r', s.Awaited u r' := by
  have hc := h.consistent
  obtain ⟨r', hr', hu, htopic⟩ := hc.published_iff.mp hpub
  have hmem := hc.mem_events hr'
  have hun : (r'.idem, OrderService.consumerName) ∉ s.order.processed := by
    intro hm
    rw [(hc.seen_iff hr' hu htopic).mpr hm] at hnew
    simp at hnew
  have hst : s.orderStatus u = some o.status := by
    simp [orderStatus, ho]
  refine ⟨r', hu, hun, fun hm => hun (h.control.handled _ _ hm).processed, ?_,
    fun stamp hf => ?_⟩
  · rw [htopic] at hmem ⊢
    rcases ht with ⟨hcur, rfl⟩ | ⟨hcur, rfl⟩
    · exact Or.inl ⟨hst.trans (congrArg some hcur), hmem, rfl⟩
    · exact Or.inr ⟨hst.trans (congrArg some hcur), hmem, rfl⟩
  · refine (OrderService.handleEvent_of_accepted (OrderService.topicTrigger_eq_some.mpr htopic)
      (hc.text r' hr') hun hu ho ?_ hf.2).1
    rcases ht with ⟨hcur, rfl⟩ | ⟨hcur, rfl⟩ <;> rw [hcur] <;> rfl

/-- An event that Order refuses is premature, and another of its saga is awaited. -/
theorem Inv.refused (h : s.Inv) {r : Record} (hr : s.facts.Committed r) {t : OrderService.Trigger}
    (ht : OrderService.topicTrigger r.topic = some t) {e : OrderService.TransitionError}
    (href : OrderService.Refused s.order t r.value e) :
    e = .prematureEvent ∧ ∃ u r', r.saga = some u ∧ s.Awaited u r' := by
  obtain ⟨hfresh, u, o, hu, ho, he⟩ := href
  have hc := h.consistent
  have htopic := OrderService.topicTrigger_eq_some.mp ht
  have hso : (s.facts.saga u).order = some o.status := by
    simp [Facts.saga, facts, factsOf, ho]
  have hnew : (s.facts.saga u).seen t = false := by
    rw [← Bool.not_eq_true, hc.seen_iff hr hu htopic]
    exact hfresh
  have hpub := hc.published_iff.mpr ⟨r, hr, hu, htopic⟩
  obtain ⟨rfl, hwait⟩ := (hc.inv u).premature hso hpub hnew he
  refine ⟨rfl, u, ?_⟩
  rcases hwait with ⟨hcur, hpub', hnew'⟩ | ⟨hcur, hpub', hnew'⟩
  · obtain ⟨r', hr'⟩ := h.awaited ho hpub' hnew' (Or.inl ⟨hcur, rfl⟩)
    exact ⟨r', hu, hr'⟩
  · obtain ⟨r', hr'⟩ := h.awaited ho hpub' hnew' (Or.inr ⟨hcur, rfl⟩)
    exact ⟨r', hu, hr'⟩

/-- In every reachable state, a published event that Order parks waits for another of its
saga, and the transaction of no published event ends in an invalid transition. -/
theorem premature_awaits (py : PyText) (stock : InventoryService.Stock) (ls : List Label)
    (r : Record) (hr : r ∈ (runFrom (step py) (init stock) ls).log) (stamp : Stamp) :
    ((OrderService.handleEvent (runFrom (step py) (init stock) ls).order r.topic (some r.value)
        stamp).err = some (.transition .prematureEvent) →
      ∃ u r', r.saga = some u ∧ (runFrom (step py) (init stock) ls).Awaited u r') ∧
    ∀ t, OrderService.topicTrigger r.topic = some t →
      OrderService.Store.handleEvent (runFrom (step py) (init stock) ls).order stamp r.idem
        OrderService.consumerName r.value.sagaId (OrderService.eventTx t stamp r.value.sagaId) ≠
        .error (.transition .invalidTransition) := by
  have h := inv_run py stock ls
  have hcommitted := h.control.log r hr
  constructor
  · intro herr
    cases ht : OrderService.topicTrigger r.topic with
    | none => simp [OrderService.handleEvent, ht] at herr
    | some t => exact (h.refused hcommitted ht (OrderService.refused_of_err ht herr)).2
  · intro t ht herr
    have href : OrderService.Refused _ t r.value .invalidTransition :=
      OrderService.refused_of_store_error herr
    exact OrderService.TransitionError.noConfusion (h.refused hcommitted ht href).1

/-- InventoryReserved overtakes PaymentProcessed. -/
theorem premature_awaits_granted :
    granted (.lit 3) ∈
        (runFrom (step noText) (init InventoryService.tenUnits) (toVerdict (.lit 3))).log ∧
      ∃ u r', (granted (.lit 3)).saga = some u ∧
        (runFrom (step noText) (init InventoryService.tenUnits) (toVerdict (.lit 3))).Awaited u
          r' := by
  have hmem : granted (.lit 3) ∈
      (runFrom (step noText) (init InventoryService.tenUnits) (toVerdict (.lit 3))).log := by
    decide +kernel
  refine ⟨hmem, (premature_awaits noText InventoryService.tenUnits (toVerdict (.lit 3)) _ hmem
    (.ofKey "k4" 4)).1 ?_⟩
  decide +kernel

/-! ## Cancelled orders -/

/-- A saga that is CANCELLED, or has an OrderCancelled event, has its payment FAILED or
REFUNDED. -/
def Compensated (s : System) (u : Uuid) : Prop :=
  (s.orderStatus u = some .cancelled ∨
      ∃ e ∈ s.order.events, e.topic = .orderCancelled ∧ e.saga = some u) →
    s.paymentStatus u = some .failed ∨ s.paymentStatus u = some .refunded

instance (s : System) (u : Uuid) : Decidable (s.Compensated u) :=
  inferInstanceAs (Decidable (_ → _))

/-- Order handles the refusal of a saga whose order is PENDING and whose payment is
captured. -/
def CancelsEarly (s : System) (u : Uuid) : Label → Prop
  | .orderHandle r stamp _ => r ∈ s.log ∧ r.topic = .inventoryReservationFailed ∧
      r.saga = some u ∧ s.Fresh .order stamp ∧ s.orderStatus u = some .pending ∧
      s.paymentStatus u = some .processed
  | _ => False

theorem Inv.compensated_iff (h : s.Inv) : s.Compensated u ↔ (s.facts.saga u).Compensated := by
  constructor
  · intro hc ho
    exact hc (Or.inl ho)
  · rintro hc (ho | ⟨e, he, htopic, hu⟩)
    · exact hc ho
    · exact hc (h.consistent.cancelled_of_committed ⟨.order, he⟩ htopic hu)

/-- Only Order's handler moves an order on. -/
theorem orderStatus_step (py : PyText) (s : System) {l : Label}
    (hl : ∀ r stamp acked, l ≠ .orderHandle r stamp acked) (u : Uuid) :
    (System.step py s l).orderStatus u = s.orderStatus u ∨
      (System.step py s l).orderStatus u = some .pending := by
  by_cases hw : l.commits = some .order
  · cases l with
    | createOrder req orderId stamp =>
      rcases step_createOrder py s req orderId stamp with heq | ⟨db, -, hok, heq⟩ <;> rw [heq]
      · exact Or.inl rfl
      · obtain ⟨-, u', -, hins, -⟩ := OrderService.createOrder_eq_ok hok
        simp only [orderStatus, Table.find?_of_insert hins u]
        split_ifs
        · exact Or.inr rfl
        · exact Or.inl rfl
    | orderHandle r stamp acked => exact absurd rfl (hl r stamp acked)
    | _ => simp [Label.commits] at hw
  · exact Or.inl (by rw [orderStatus, order_frame py s hw]; rfl)

/-- A refusal that is handled while the order is PENDING is applied. -/
theorem Inv.applied_of_cancelsEarly (h : s.Inv) (py : PyText) {r : Record} {stamp : Stamp}
    {acked : Bool} (hc : s.CancelsEarly u (.orderHandle r stamp acked)) :
    (System.step py s (.orderHandle r stamp acked)).orderStatus u = some .cancelled ∧
      (System.step py s (.orderHandle r stamp acked)).paymentStatus u = some .processed := by
  obtain ⟨hr, htopic, hu, hf, ho, hp⟩ := hc
  have hcommitted := h.control.log r hr
  have htr : OrderService.topicTrigger r.topic = some .inventoryReservationFail := by
    rw [htopic]
    rfl
  obtain ⟨o, hfind, hst⟩ := Option.map_eq_some_iff.mp ho
  have hstatus := (h.consistent.inv u).status
  rw [show (s.facts.saga u).order = some .pending from ho] at hstatus
  have hun : (r.idem, OrderService.consumerName) ∉ s.order.processed := by
    intro hm
    have hseen :=
      (h.consistent.seen_iff (t := .inventoryReservationFail) hcommitted hu htopic).mpr hm
    rw [hstatus] at hseen
    simp at hseen
  obtain ⟨-, ha⟩ := OrderService.handleEvent_of_accepted htr (h.consistent.text r hcommitted) hun hu
    hfind (by rw [hst]; rfl) hf.2
  have hstep : System.step py s (.orderHandle r stamp acked) = _ := if_pos ⟨hr, by
    rw [htopic]
    decide, hf⟩
  rw [hstep]
  refine ⟨?_, hp⟩
  simp only [orderStatus, ha.orders, OrderService.find?_setStatus, if_true, hfind, hst]
  rfl

/-- A step leaves a captured payment behind exactly if it cancels the order early. -/
theorem Inv.compensated_step_iff (h : s.Inv) (hc : (s.facts.saga u).Compensated) (py : PyText)
    (l : Label) :
    ((System.step py s l).facts.saga u).Compensated ↔ ¬s.CancelsEarly u l := by
  constructor
  · intro hc' hearly
    cases l with
    | orderHandle r stamp acked =>
      obtain ⟨ho, hp⟩ := h.applied_of_cancelsEarly py hearly
      rcases hc' ho with hp' | hp' <;> exact absurd (hp.symm.trans hp') (by decide)
    | _ => exact hearly
  · intro hearly
    -- a payment that the order was cancelled with is final
    have hkeep : (System.step py s l).orderStatus u = s.orderStatus u →
        ((System.step py s l).facts.saga u).Compensated := by
      intro heq ho
      rcases hc (heq.symm.trans ho) with hp | hp
      · exact Or.inl (h.payment_final py PaymentService.Status.noConfusion hp [l])
      · exact Or.inr (h.payment_final py PaymentService.Status.noConfusion hp [l])
    by_cases hl : ∀ r stamp acked, l ≠ .orderHandle r stamp acked
    · rcases orderStatus_step py s hl u with heq | heq
      · exact hkeep heq
      · intro ho
        exact absurd (heq.symm.trans ho) (by decide)
    · push Not at hl
      obtain ⟨r, stamp, acked, rfl⟩ := hl
      rcases step_orderHandle h py r stamp acked with heq | ⟨-, heq⟩ |
        ⟨db, hf, -, -, hp, ⟨t, u', o, hun, hok, -, hsaga⟩, heq⟩
      · exact hkeep (by rw [heq])
      · exact hkeep (by rw [heq]; rfl)
      · have hsaga' : (System.step py s (.orderHandle r stamp acked)).facts.saga u = _ :=
          (congrArg (fun s => s.facts.saga u) heq).trans (hsaga u)
        rw [hsaga']
        split_ifs with hu
        · subst hu
          have ho : (s.facts.saga u).order = some o.status := by
            simp [Facts.saga, hun.order]
          have htopic := OrderService.topicTrigger_eq_some.mp hun.trigger
          have hpub := h.consistent.published_iff.mpr ⟨r, hun.committed, hun.saga, htopic⟩
          refine ((h.consistent.inv u).compensated_deliver_iff hc ho hpub hok).mpr ?_
          rintro ⟨rfl, hpending, hprocessed⟩
          exact hearly ⟨hp.log, htopic, hun.saga, hf, hpending, hprocessed⟩
        · exact hc

/-- A run keeps every cancelled saga compensated exactly if it never cancels it early. -/
theorem compensated_throughout_iff (py : PyText) (stock : InventoryService.Stock) (u : Uuid)
    (ls : List Label) :
    Throughout (step py) (fun s => s.Compensated u) (init stock) ls ↔
      Along (step py) (fun s l => ¬s.CancelsEarly u l) (init stock) ls := by
  refine throughout_iff_along (I := Inv) (fun s l h => h.step py l) (fun s l h hc => ?_)
    (inv_init stock) ?_
  · rw [(h.step py l).compensated_iff]
    exact h.compensated_step_iff (h.compensated_iff.mp hc) py l
  · rintro (ho | ⟨e, he, -⟩)
    · exact absurd ho (by simp [init, orderStatus, OrderService.Db.empty])
    · exact absurd he (List.not_mem_nil)

/-- The refusal of an order of eleven units overtakes the capture of its payment. -/
def overtaken : List Label :=
  toVerdict (.lit 11) ++ [.orderHandle (refused (.lit 11)) (.ofKey "k4" 4) true]

/-- The order is cancelled, and announced as cancelled, with its payment captured. -/
theorem not_compensated_overtaken :
    (runFrom (step noText) (init InventoryService.tenUnits) overtaken).orderStatus 10 =
        some .cancelled ∧
      (runFrom (step noText) (init InventoryService.tenUnits) overtaken).paymentStatus 10 =
        some .processed ∧
      ¬(runFrom (step noText) (init InventoryService.tenUnits) overtaken).Compensated 10 := by
  decide +kernel

end Choreography.System
