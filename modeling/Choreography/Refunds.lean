import Choreography.Agreement

/-!
# What a refund refunds

The amount of an order goes from OrderCreated into the row of `payments`, and
PaymentRefunded should say it again. But Payment reads the amount of a refund from the
message that asks for it, and the InventoryReservationFailed that Inventory builds carries
none : the refund is of 0, whatever was charged.

`Amounts` is what every run keeps : a payment has the amount of its order, and no refusal
has an amount. `refundsCharge_throughout_iff` is the exact condition under which a run's
refunds are right, and `not_refundsCharge_refunded` a run where one is not.
-/

namespace Choreography

namespace Facts

/-- Inventory announces nothing when it handles a message. -/
theorem Step.events_of_inventory {f f' : Facts} {r : Record}
    (h : f.Step (some (.inventory, r)) f') : f'.events = f.events := by
  cases h with
  | ignore => rfl

end Facts

namespace System

open PaymentService (PyText Payment PyFloat dataGet noText)

variable {s : System} {u : Uuid}

/-! ## Amounts -/

/-- `data.amount` of an event. -/
def amountOf (r : Record) : Option ℚ :=
  match dataGet r.value.data "amount" .null with
  | some (.num q) => some q
  | _ => none

/-- The amount stored for the saga. -/
def chargedAmount (s : System) (u : Uuid) : Option PyFloat :=
  (s.payment.payments.find? u).map Payment.amount

/-- Every PaymentRefunded of the saga carries the amount that was charged, which is that
of OrderCreated. -/
def RefundsCharge (s : System) (u : Uuid) : Prop :=
  ∀ r ∈ s.payment.events, r.topic = .paymentRefunded → r.saga = some u →
    ∃ c ∈ s.order.events, c.topic = .orderCreated ∧ c.saga = some u ∧ (amountOf c).isSome ∧
      s.chargedAmount u = (amountOf c).map PyFloat.finite ∧ amountOf r = amountOf c

/-- A payment has the amount of its order, and the refusals of Inventory have none. -/
structure Amounts (s : System) : Prop where
  charged : ∀ u p, s.payment.payments.find? u = some p →
    ∃ o, s.order.orders.find? u = some o ∧ p.amount = .finite o.amount.val
  refused : ∀ r ∈ s.inventory.events, r.topic = .inventoryReservationFailed →
    dataGet r.value.data "amount" (.num 0) = some (.num 0)

theorem amounts_init (stock : InventoryService.Stock) : (init stock).Amounts where
  charged _ _ hp := nomatch hp
  refused _ hr := absurd hr List.not_mem_nil

/-- An order keeps its amount. -/
theorem Inv.order_step (h : s.Inv) (py : PyText) (l : Label) {o : OrderService.Order}
    (ho : s.order.orders.find? u = some o) :
    ∃ o', (System.step py s l).order.orders.find? u = some o' ∧ o'.amount = o.amount := by
  obtain ⟨st, ho'⟩ := (h.step_extends py l).orders u o ho
  exact ⟨_, ho', rfl⟩

/-! ## Payments -/

/-- A row of `payments` after a transaction of Payment has the amount of the row before,
or that of the order. -/
theorem Inv.charged_paymentHandle (h : s.Inv) (ha : s.Amounts) {py : PyText} {r : Record}
    {forceFailure : Bool} {stamp : Stamp} (hr : r ∈ s.log)
    (ht : r.topic ∈ PaymentService.consumedTopics) {hd : PaymentService.Handled}
    (hok : PaymentService.handle py forceFailure s.payment r.topic r.value stamp = .ok hd)
    {p : Payment} (hp : hd.db.payments.find? u = some p) :
    ∃ o, s.order.orders.find? u = some o ∧ p.amount = .finite o.amount.val := by
  have hcommitted := h.control.log r hr
  have htopic : r.topic = .orderCreated ∨ r.topic = .inventoryReservationFailed := by
    simpa [PaymentService.consumedTopics] using ht
  obtain htopic | htopic := htopic
  · have hmem : r ∈ s.facts.events .order := by
      have := h.consistent.mem_events hcommitted
      rwa [htopic] at this
    obtain ⟨v, hv⟩ := h.consistent.saga r hcommitted
    obtain ⟨o, ho, hdata⟩ := h.consistent.created r hmem htopic v hv
    rw [htopic] at hok
    have hcharge := hok
    rw [PaymentService.handle, PaymentService.handleOrderCreated_of_data hdata] at hcharge
    have hcharged : ∀ {status : PaymentService.Status} {ob : OutboxInsert},
        PaymentService.Charged s.payment stamp v o.amount.val status ob hd.db →
        ∃ o, s.order.orders.find? u = some o ∧ p.amount = .finite o.amount.val := by
      intro status ob hc
      rw [Table.find?_of_insert hc.payments] at hp
      split_ifs at hp with huv
      · rw [← Option.some.inj hp, huv]
        exact ⟨o, ho, rfl⟩
      · exact ha.charged u p hp
    obtain ⟨v', hv', ⟨hdb, -⟩ | ⟨q, hq, ⟨reason, hc, -⟩ | ⟨hc, -⟩⟩⟩ :=
      PaymentService.charge_cases hcharge
    · rw [hdb] at hp
      exact ha.charged u p hp
    all_goals
      obtain rfl : v' = v := Option.some.inj (hv'.symm.trans hv)
      obtain rfl : o.amount.val = q := PyFloat.finite.inj hq
      exact hcharged hc
  · rw [htopic] at hok
    obtain ⟨-, ⟨hdb, -⟩ | ⟨v, amount, -, hc, -⟩⟩ :=
      PaymentService.handleCompensation_parsed_cases hok
    · rw [hdb] at hp
      exact ha.charged u p hp
    · have htables := hc.tables
      split_ifs at htables
      · rw [htables.1, PaymentService.find?_setRefunded] at hp
        split_ifs at hp with huv
        · obtain ⟨p₀, hp₀, rfl⟩ := Option.map_eq_some_iff.mp hp
          rw [huv]
          exact ha.charged v p₀ hp₀
        · exact ha.charged u p hp
      · rw [htables.1] at hp
        exact ha.charged u p hp

theorem Inv.charged_step (h : s.Inv) (ha : s.Amounts) (py : PyText) (l : Label) (p : Payment)
    (hp : (System.step py s l).payment.payments.find? u = some p) :
    ∃ o, (System.step py s l).order.orders.find? u = some o ∧ p.amount = .finite o.amount.val := by
  -- the orders of the next state have the amounts of this one
  suffices hold : ∃ o, s.order.orders.find? u = some o ∧ p.amount = .finite o.amount.val by
    obtain ⟨o, ho, hamount⟩ := hold
    obtain ⟨o', ho', hsame⟩ := h.order_step py l ho
    exact ⟨o', ho', by rw [hamount, hsame]⟩
  by_cases hw : l.commits = some .payment
  · cases l with
    | paymentHandle r forceFailure stamp =>
      obtain heq | ⟨-, -, heq⟩ | ⟨hd, -, -, hok, hproc, -, heq⟩ :=
        step_paymentHandle h py r forceFailure stamp
      · exact ha.charged u p (heq ▸ hp)
      · rw [heq] at hp
        exact ha.charged u p hp
      · rw [heq] at hp
        exact h.charged_paymentHandle ha hproc.log hproc.topic hok hp
    | _ => simp [Label.commits] at hw
  · rw [(payment_frame py s hw).1] at hp
    exact ha.charged u p hp

/-! ## Refusals -/

/-- What Inventory announces for a request has no amount if it is a refusal. -/
theorem Inv.refused_serve (ha : s.Amounts) {newId : Uuid} {stamp : Stamp}
    {req : ReserveStockRequest} {result : InventoryService.ReserveResult}
    {db : InventoryService.Db}
    (hok : InventoryService.Server.reserveStock s.inventory newId stamp req = .ok (result, db))
    {r : Record} (hr : r ∈ db.events) (htopic : r.topic = .inventoryReservationFailed) :
    dataGet r.value.data "amount" (.num 0) = some (.num 0) := by
  have hnew : ∀ ob, insertOutbox stamp s.inventory.outbox ob = .ok db.outbox →
      (ob.record.topic = .inventoryReservationFailed →
        dataGet ob.record.value.data "amount" (.num 0) = some (.num 0)) →
      dataGet r.value.data "amount" (.num 0) = some (.num 0) := by
    intro ob hb hob
    rw [InventoryService.Db.events, eventsOf_insertOutbox hb, List.mem_append,
      List.mem_singleton] at hr
    obtain hr | rfl := hr
    · exact ha.refused r hr htopic
    · exact hob htopic
  obtain ⟨rfl, -⟩ | ⟨-, -, -, href⟩ | ⟨-, -, -, u, -, -, ht⟩ :=
    InventoryService.reserveStock_cases hok
  · exact ha.refused r hr htopic
  · exact hnew _ href.outbox fun _ => rfl
  · refine hnew _ ht.outbox fun htopic => ?_
    cases htopic

theorem Inv.refused_step (h : s.Inv) (ha : s.Amounts) (py : PyText) (l : Label) (r : Record)
    (hr : r ∈ (System.step py s l).inventory.events)
    (htopic : r.topic = .inventoryReservationFailed) :
    dataGet r.value.data "amount" (.num 0) = some (.num 0) := by
  by_cases hw : l.commits = some .inventory
  · cases l with
    | serve req newId stamp =>
      obtain heq | ⟨-, -, -, heq⟩ | ⟨r', db, -, -, -, ⟨result, hok⟩, -, -, heq⟩ :=
        step_serve h py req newId stamp
      · exact ha.refused r (heq ▸ hr) htopic
      · rw [heq] at hr
        exact ha.refused r hr htopic
      · rw [heq] at hr
        exact Inv.refused_serve ha hok hr htopic
    | inventoryHandle r' stamp acked =>
      obtain heq | ⟨-, heq⟩ | ⟨outcome, db, -, -, hproc, -, -, heq⟩ :=
        step_inventoryHandle h py r' stamp acked
      · exact ha.refused r (heq ▸ hr) htopic
      · rw [heq] at hr
        exact ha.refused r hr htopic
      · rw [heq] at hr
        have hmem : r ∈ (factsOf s.order s.payment db).events .inventory := hr
        rw [hproc.step.events_of_inventory] at hmem
        exact ha.refused r hmem htopic
    | _ => simp [Label.commits] at hw
  · rw [(inventory_frame py s hw).2.2] at hr
    exact ha.refused r hr htopic

theorem Inv.amounts_step (h : s.Inv) (ha : s.Amounts) (py : PyText) (l : Label) :
    (System.step py s l).Amounts where
  charged _ p hp := h.charged_step ha py l p hp
  refused := h.refused_step ha py l

/-! ## Refunds -/

/-- An order has its OrderCreated event, with its amount. -/
theorem Inv.exists_created (h : s.Inv) {o : OrderService.Order}
    (ho : s.order.orders.find? u = some o) :
    ∃ c ∈ s.order.events, c.topic = .orderCreated ∧ c.saga = some u ∧
      amountOf c = some o.amount.val := by
  have hmem : Topic.orderCreated ∈ topicsOf u (s.facts.events .order) := by
    have hso : (s.facts.saga u).order = some o.status := by
      simp [Facts.saga, facts, factsOf, ho]
    rw [h.consistent.topics, Saga.topics, hso]
    cases o.status <;> simp
  obtain ⟨c, hc, hu, htopic⟩ := mem_topicsOf.mp hmem
  obtain ⟨o', ho', hdata⟩ := h.consistent.created c hc htopic u hu
  obtain rfl : o' = o := Option.some.inj (ho'.symm.trans ho)
  refine ⟨c, hc, htopic, hu, ?_⟩
  rw [amountOf, hdata]
  rfl

/-- The saga of a PaymentRefunded has a payment. -/
theorem Inv.exists_payment (h : s.Inv) {r : Record} (hr : r ∈ s.payment.events)
    (hu : r.saga = some u) : ∃ p, s.payment.payments.find? u = some p := by
  have hevent : r ∈ s.facts.events .payment := hr
  have hmem := h.consistent.mem_topics hevent hu
  cases hp : s.payment.payments.find? u with
  | some p => exact ⟨p, rfl⟩
  | none => simp [Saga.topics, Facts.saga, facts, factsOf, hp] at hmem

/-- The refunds of a saga are right if they are of the amount of the order. -/
theorem Inv.refundsCharge_iff (h : s.Inv) (ha : s.Amounts) :
    s.RefundsCharge u ↔ ∀ r ∈ s.payment.events, r.topic = .paymentRefunded → r.saga = some u →
      ∃ o, s.order.orders.find? u = some o ∧ amountOf r = some o.amount.val := by
  constructor
  · intro hc r hr htopic hu
    obtain ⟨c, -, -, -, -, hcharged, hamount⟩ := hc r hr htopic hu
    obtain ⟨p, hp⟩ := h.exists_payment hr hu
    obtain ⟨o, ho, hpo⟩ := ha.charged u p hp
    refine ⟨o, ho, ?_⟩
    rw [chargedAmount, hp, Option.map_some, hpo] at hcharged
    obtain ⟨q, hq, hqo⟩ := Option.map_eq_some_iff.mp hcharged.symm
    rw [hamount, hq, PyFloat.finite.inj hqo]
  · intro hc r hr htopic hu
    obtain ⟨o, ho, hamount⟩ := hc r hr htopic hu
    obtain ⟨c, hmem, hct, hcu, hco⟩ := h.exists_created ho
    obtain ⟨p, hp⟩ := h.exists_payment hr hu
    obtain ⟨o', ho', hpo⟩ := ha.charged u p hp
    obtain rfl : o' = o := Option.some.inj (ho'.symm.trans ho)
    refine ⟨c, hmem, hct, hcu, by rw [hco]; rfl, ?_, hamount.trans hco.symm⟩
    rw [chargedAmount, hp, hco, Option.map_some, Option.map_some, hpo]

/-- Payment handles the refusal of the saga while its payment is captured. -/
def Refunding (s : System) (u : Uuid) : Label → Prop
  | .paymentHandle r _ stamp => r ∈ s.log ∧ r.topic = .inventoryReservationFailed ∧
      r.saga = some u ∧ s.working = none ∧ s.Fresh .payment stamp ∧
      s.paymentStatus u = some .processed
  | _ => False

theorem Refunding.captured {l : Label} (h : s.Refunding u l) :
    s.paymentStatus u = some .processed := by
  cases l with
  | paymentHandle r forceFailure stamp => exact h.2.2.2.2.2
  | _ => exact h.elim

/-- A PaymentRefunded after Payment's handler was there before, or is the answer to a refusal
of its saga, of the amount 0. -/
theorem Inv.refunded_handle (h : s.Inv) (ha : s.Amounts) {py : PyText} {r r' : Record}
    {forceFailure : Bool} {stamp : Stamp} {hd : PaymentService.Handled} (hlog : r' ∈ s.log)
    (hconsumes : r'.topic ∈ PaymentService.consumedTopics)
    (hok : PaymentService.handle py forceFailure s.payment r'.topic r'.value stamp = .ok hd)
    (hr : r ∈ hd.db.events) (htopic : r.topic = .paymentRefunded) (hu : r.saga = some u) :
    r ∈ s.payment.events ∨ r'.topic = .inventoryReservationFailed ∧ r'.saga = some u ∧
      s.paymentStatus u = some .processed ∧ amountOf r = some 0 := by
  have hnew : ∀ {ob : OutboxInsert},
      insertOutbox stamp s.payment.outbox ob = .ok hd.db.outbox →
      r ∈ s.payment.events ∨ r = ob.record := by
    intro ob hb
    have hmem : r ∈ eventsOf hd.db.outbox := hr
    rwa [eventsOf_insertOutbox hb, List.mem_append, List.mem_singleton] at hmem
  have htopic' : r'.topic = .orderCreated ∨ r'.topic = .inventoryReservationFailed := by
    simpa [PaymentService.consumedTopics] using hconsumes
  obtain htopic' | htopic' := htopic'
  · -- a charge enqueues PaymentProcessed or PaymentFailed
    rw [htopic', PaymentService.handle] at hok
    obtain ⟨amount, sku, quantity, hok⟩ := PaymentService.handleOrderCreated_parsed_eq_ok hok
    obtain ⟨v, -, ⟨hdb, -⟩ | ⟨q, -, ⟨reason, hc, -⟩ | ⟨hc, -⟩⟩⟩ :=
      PaymentService.charge_cases hok
    · exact Or.inl (by rwa [hdb] at hr)
    all_goals
      refine (hnew hc.outbox).imp_right ?_
      rintro rfl
      cases htopic
  · rw [htopic', PaymentService.handle] at hok
    have hmem : r' ∈ s.inventory.events := by
      have := h.consistent.mem_events (h.control.log r' hlog)
      rwa [htopic'] at this
    obtain ⟨-, ⟨hdb, -⟩ | ⟨v, amount, hv, hc, hq⟩⟩ :=
      PaymentService.handleCompensation_parsed_cases hok
    · exact Or.inl (by rwa [hdb] at hr)
    · have htables := hc.tables
      split_ifs at htables with hst
      · refine (hnew htables.2).imp_right ?_
        rintro rfl
        obtain rfl : v = u := Option.some.inj (hv.symm.trans hu)
        refine ⟨htopic', hv, hst, ?_⟩
        have hzero := hq hst
        rw [ha.refused r' hmem htopic', Option.bind_some, py.toFloat_zero] at hzero
        obtain rfl : (0 : ℚ) = amount := PyFloat.finite.inj (Option.some.inj hzero)
        rfl
      · have hmem' : r ∈ eventsOf hd.db.outbox := hr
        rw [htables.2] at hmem'
        exact Or.inl hmem'

/-- A PaymentRefunded after a step was there before, or the step refunds, and the event is
of the amount 0. -/
theorem Inv.refunded_step (h : s.Inv) (ha : s.Amounts) (py : PyText) (l : Label) {r : Record}
    (hr : r ∈ (System.step py s l).payment.events) (htopic : r.topic = .paymentRefunded)
    (hu : r.saga = some u) :
    r ∈ s.payment.events ∨ s.Refunding u l ∧ amountOf r = some 0 := by
  by_cases hw : l.commits = some .payment
  · cases l with
    | paymentHandle r' forceFailure stamp =>
      obtain heq | ⟨-, -, heq⟩ | ⟨hd, hwork, hf, hok, hproc, -, heq⟩ :=
        step_paymentHandle h py r' forceFailure stamp
      · exact Or.inl (heq ▸ hr)
      · exact Or.inl (by rwa [heq] at hr)
      · rw [heq] at hr
        refine (h.refunded_handle ha hproc.log hproc.topic hok hr htopic hu).imp_right ?_
        rintro ⟨htopic', hu', hst, hamount⟩
        exact ⟨⟨hproc.log, htopic', hu', hwork, hf, hst⟩, hamount⟩
    | _ => simp [Label.commits] at hw
  · rw [(payment_frame py s hw).2] at hr
    exact Or.inl hr

/-- Payment handles the refusal of the saga while its payment, of an amount other than 0,
is captured. -/
def RefundsNonzero (s : System) (u : Uuid) (l : Label) : Prop :=
  s.Refunding u l ∧ s.chargedAmount u ≠ some (.finite 0)

/-- A refusal that is handled while the payment is captured is refunded with the
amount 0. -/
theorem Inv.refunded_of_refunding (h : s.Inv) (ha : s.Amounts) (py : PyText) {l : Label}
    (hl : s.Refunding u l) :
    ∃ r ∈ (System.step py s l).payment.events, r.topic = .paymentRefunded ∧ r.saga = some u ∧
      amountOf r = some 0 := by
  cases l with
  | paymentHandle r forceFailure stamp =>
    obtain ⟨hr, htopic, hu, hwork, hf, hst⟩ := hl
    have hcommitted := h.control.log r hr
    have hmem : r ∈ s.inventory.events := by
      have := h.consistent.mem_events hcommitted
      rwa [htopic] at this
    have hfresh : (r.idem, PaymentService.refundConsumer) ∉ s.payment.processed := by
      intro hm
      have hre : s.paymentStatus u = some .refunded := h.consistent.refunds r hcommitted hm u hu
      exact absurd (hst.symm.trans hre) (by decide)
    have hzero : (dataGet r.value.data "amount" (.num 0)).bind py.toFloat = some (.finite 0) := by
      rw [ha.refused r hmem htopic, Option.bind_some, py.toFloat_zero]
    obtain ⟨hd, hok, hevents⟩ := PaymentService.handleCompensation_of_captured py
      (h.consistent.text r hcommitted) hfresh hu hst hf.2 hzero
    have hstep : System.step py s (.paymentHandle r forceFailure stamp) =
        { s with payment := hd.db, working := goOn r hd.next } := by
      have hguard : r ∈ s.log ∧ r.topic ∈ PaymentService.consumedTopics ∧ s.working = none ∧
          s.Fresh .payment stamp := ⟨hr, by rw [htopic]; decide, hwork, hf⟩
      have hhandle : PaymentService.handle py forceFailure s.payment r.topic r.value stamp =
          .ok hd := by rw [htopic]; exact hok
      simp only [System.step, if_pos hguard, hhandle]
    refine ⟨(PaymentService.refundedEvent stamp r.value.sagaId 0).record, ?_, rfl, hu, rfl⟩
    rw [hstep]
    exact hevents ▸ List.mem_append_right _ (List.mem_singleton_self _)
  | _ => exact hl.elim

/-- A step keeps the refunds of a saga right exactly if it does not refund an amount other
than 0. -/
theorem Inv.refundsCharge_step_iff (h : s.Inv) (ha : s.Amounts) (hc : s.RefundsCharge u)
    (py : PyText) (l : Label) :
    (System.step py s l).RefundsCharge u ↔ ¬s.RefundsNonzero u l := by
  rw [(h.step py l).refundsCharge_iff (h.amounts_step ha py l)]
  constructor
  · rintro hc' ⟨hl, hne⟩
    obtain ⟨r, hr, htopic, hu, hzero⟩ := h.refunded_of_refunding ha py hl
    obtain ⟨o', ho', hamount⟩ := hc' r hr htopic hu
    obtain ⟨p, hp, -⟩ := Option.map_eq_some_iff.mp hl.captured
    obtain ⟨o, ho, hpo⟩ := ha.charged u p hp
    obtain ⟨o'', ho'', hsame⟩ := h.order_step py l ho
    obtain rfl : o'' = o' := Option.some.inj (ho''.symm.trans ho')
    refine hne ?_
    rw [chargedAmount, hp, Option.map_some, hpo, ← hsame,
      ← Option.some.inj (hzero.symm.trans hamount)]
  · intro hl r hr htopic hu
    obtain hr | ⟨hre, hzero⟩ := h.refunded_step ha py l hr htopic hu
    · obtain ⟨o, ho, hamount⟩ := (h.refundsCharge_iff ha).mp hc r hr htopic hu
      obtain ⟨o', ho', hsame⟩ := h.order_step py l ho
      exact ⟨o', ho', by rw [hamount, hsame]⟩
    · have hcharged : s.chargedAmount u = some (.finite 0) := by
        by_contra hne
        exact hl ⟨hre, hne⟩
      obtain ⟨p, hp, hpz⟩ := Option.map_eq_some_iff.mp hcharged
      obtain ⟨o, ho, hpo⟩ := ha.charged u p hp
      obtain ⟨o', ho', hsame⟩ := h.order_step py l ho
      refine ⟨o', ho', ?_⟩
      rw [hzero, hsame, ← PyFloat.finite.inj (hpz.symm.trans hpo)]

/-- The refunds of a saga are of what was charged, in every state of a run, exactly if no
step of the run refunds a captured payment of an amount other than 0. -/
theorem refundsCharge_throughout_iff (py : PyText) (stock : InventoryService.Stock) (u : Uuid)
    (ls : List Label) :
    Throughout (step py) (fun s => s.RefundsCharge u) (init stock) ls ↔
      Along (step py) (fun s l => ¬s.RefundsNonzero u l) (init stock) ls := by
  refine throughout_iff_along (I := fun s : System => s.Inv ∧ s.Amounts)
    (fun s l h => ⟨h.1.step py l, h.1.amounts_step h.2 py l⟩)
    (fun s l h hc => h.1.refundsCharge_step_iff h.2 hc py l)
    ⟨inv_init stock, amounts_init stock⟩ ?_
  intro r hr
  exact absurd hr List.not_mem_nil

/-- The order of eleven units, of the amount 10, is refused, and its payment refunded. -/
def refunded : List Label :=
  toVerdict (.lit 11) ++ [.paymentHandle (refused (.lit 11)) false (.ofKey "k4" 4)]

/-- 10 was charged, and 0 is refunded. -/
theorem not_refundsCharge_refunded :
    (runFrom (step noText) (init InventoryService.tenUnits) refunded).chargedAmount 10 =
        some (.finite 10) ∧
      (∃ r ∈ (runFrom (step noText) (init InventoryService.tenUnits) refunded).payment.events,
        r.topic = .paymentRefunded ∧ r.saga = some 10 ∧ amountOf r = some 0) ∧
      ¬(runFrom (step noText) (init InventoryService.tenUnits) refunded).RefundsCharge 10 := by
  have hrun : (runFrom (step noText) (init InventoryService.tenUnits) refunded).chargedAmount 10 =
        some (.finite 10) ∧
      ∃ r ∈ (runFrom (step noText) (init InventoryService.tenUnits) refunded).payment.events,
        r.topic = .paymentRefunded ∧ r.saga = some 10 ∧ amountOf r = some 0 := by
    decide +kernel
  refine ⟨hrun.1, hrun.2, fun hc => ?_⟩
  obtain ⟨r, hr, htopic, hu, hzero⟩ := hrun.2
  obtain ⟨c, -, -, -, -, hcharged, hamount⟩ := hc r hr htopic hu
  rw [hrun.1, ← hamount, hzero] at hcharged
  exact absurd hcharged (by decide)

end System

end Choreography
