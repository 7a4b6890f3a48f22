import Choreography.Inventory
import Choreography.OrderRuns
import Choreography.PaymentRuns

/-!
# The counters

`saga_terminal_total` of Order and `payment_result_total` of Payment, beside the tables that
they report on. Both are incremented after the transaction, and not by the transition that
they stand for : Order counts an order that it finds terminal after a new message, and
Payment counts a refund for every new compensation message.

So Order counts an order again for every new message that comes after the order became
terminal, and counts right without such messages only (`countsOrders_throughout_iff`);
Payment counts refunds that no payment saw, for the compensation of a saga whose payment is
not PROCESSED, and counts right without those only (`countsPayments_throughout_iff`).
-/

namespace Choreography

/-! ## Orders -/

namespace OrderService

/-- The status that is counted under an outcome. -/
def Terminal.status : Terminal → Status
  | .confirmed => .confirmed
  | .cancelled => .cancelled

/-- The number of orders of a status. -/
def Db.number (db : Db) (st : Status) : ℕ := db.orders.rows.countP fun o => o.status = st

/-- The service, with the totals of `saga_terminal_total`. -/
structure Metered where
  db : Db
  total : Terminal → ℕ

namespace Metered

/-- A new deployment. -/
def init : Metered := ⟨.empty, fun _ => 0⟩

/-- An operation, and what a delivery adds to the totals. -/
def step (s : Metered) (op : Op) : Metered where
  db := s.db.step op
  total outcome := s.total outcome +
    match op with
    | .handleEvent topic value stamp =>
      if (handleEvent s.db topic value stamp).counted = some outcome then 1 else 0
    | _ => 0

/-- The totals are the numbers of CONFIRMED and of CANCELLED orders. -/
def CountsOrders (s : Metered) : Prop := ∀ outcome, s.total outcome = s.db.number outcome.status

end Metered

/-- A message that was not processed before is handled for an order that is terminal. -/
def Op.Late (db : Db) : Op → Prop
  | .handleEvent topic (some env) _ =>
    topicTrigger topic ≠ none ∧ hasNul env.idempotencyKey = false ∧
      (env.idempotencyKey, consumerName) ∉ db.processed ∧
      ∃ st ∈ (uuidIn env.sagaId).bind db.status, st.isTerminal = true
  | _ => False

variable {db db' : Db} {u : Uuid} {o : Order} {t : Trigger} {env : Envelope} {stamp : Stamp}

/-- A delivery counts nothing and changes nothing, or it is applied and counts what the
order has become. -/
theorem counted_cases (db : Db) (topic : Topic) (value : Option Envelope) (stamp : Stamp) :
    ((handleEvent db topic value stamp).counted = none ∧
        (handleEvent db topic value stamp).db = db) ∨
      ∃ t env u o, topicTrigger topic = some t ∧ value = some env ∧
        Applied db t env stamp u o (handleEvent db topic value stamp).db ∧
        (handleEvent db topic value stamp).counted =
          recordTerminal (handleEvent db topic value stamp).db env.sagaId := by
  cases ht : topicTrigger topic with
  | none => exact Or.inl (by simp [handleEvent, ht])
  | some t =>
  cases value with
  | none => exact Or.inl (by simp [handleEvent, ht])
  | some env =>
    obtain ⟨e, h⟩ | ⟨h, -⟩ | ⟨h, -⟩ | ⟨e, h, -⟩ | ⟨db', h, u, o, ha⟩ :=
      store_handleEvent_cases db t env stamp
    · exact Or.inl (by simp [handleEvent, ht, h])
    · exact Or.inl (by simp [handleEvent, ht, h])
    · exact Or.inl (by simp [handleEvent, ht, h])
    · cases e <;> exact Or.inl (by simp [handleEvent, ht, h])
    · refine Or.inr ⟨t, env, u, o, rfl, rfl, ?_⟩
      simp only [handleEvent, ht, h]
      exact ⟨ha, trivial⟩

theorem Applied.recordTerminal_eq_some (h : Applied db t env stamp u o db') (outcome : Terminal) :
    recordTerminal db' env.sagaId = some outcome ↔ (apply o.status t).1.next = outcome.status := by
  simp only [recordTerminal, h.saga, h.find?, if_true]
  cases (apply o.status t).1.next <;> cases outcome <;>
    simp [Status.isTerminal, Terminal.status]

/-- An applied message moves its order from one number to another. -/
theorem Applied.number (h : Applied db t env stamp u o db') (st : Status) :
    db'.number st + (if o.status = st then 1 else 0) =
      db.number st + if (apply o.status t).1.next = st then 1 else 0 := by
  have hcount := Table.countP_update h.order
    (fun o' => { o' with status := (apply o.status t).1.next }) (fun _ => rfl)
    fun o' => decide (o'.status = st)
  simp only [decide_eq_true_eq] at hcount
  rw [Db.number, h.orders]
  exact hcount

/-- A late message is applied, to an order that is terminal. -/
theorem applied_of_late {topic : Topic} (h : (Op.handleEvent topic (some env) stamp).Late db) :
    ∃ t u o, Applied db t env stamp u o (handleEvent db topic (some env) stamp).db ∧
      o.status.isTerminal = true ∧ (handleEvent db topic (some env) stamp).counted =
        recordTerminal (handleEvent db topic (some env) stamp).db env.sagaId := by
  obtain ⟨htopic, htext, hfresh, st, hst, hterm⟩ := h
  obtain ⟨t, ht⟩ := Option.ne_none_iff_exists'.mp htopic
  obtain ⟨u, hu, hst⟩ := Option.bind_eq_some_iff.mp hst
  obtain ⟨o, ho, rfl⟩ := Option.map_eq_some_iff.mp hst
  have hok : (apply o.status t).2 = none := by
    revert hterm
    cases o.status <;> cases t <;> decide
  have hcan : ¬Cancels o.status t := by
    rintro ⟨hne, hnext⟩
    exact hne ((apply_terminal o.status t hterm).symm.trans hnext)
  obtain ⟨-, hc, -⟩ | ⟨db', ha, hdb'⟩ := store_handleEvent_of_accepted htext hfresh hu ho hok stamp
  · exact absurd hc hcan
  · refine ⟨t, u, o, ?_⟩
    simp only [handleEvent, ht, hdb']
    exact ⟨ha, hterm, trivial⟩

namespace Metered

variable {s : Metered}

theorem CountsOrders.congr (h : CountsOrders s) {s' : Metered} (htotal : s'.total = s.total)
    (hdb : ∀ outcome : Terminal, s'.db.number outcome.status = s.db.number outcome.status) :
    CountsOrders s' := by
  intro outcome
  rw [htotal, hdb]
  exact h outcome

theorem CountsOrders.createOrder (h : CountsOrders s) (orderId customerId sku : String)
    (quantity : Int4) (amount : Float64) (stamp : Stamp) :
    CountsOrders (s.step (.createOrder orderId customerId sku quantity amount stamp)) := by
  refine h.congr rfl fun outcome => ?_
  simp only [step, Db.step]
  split
  next db' hok =>
    obtain ⟨-, u, -, hins, -⟩ := Store.createOrder_eq_ok hok
    rw [Db.number, Table.countP_of_insert hins]
    cases outcome <;> rfl
  next => rfl

/-- A late message is counted, and no order has become terminal. -/
theorem CountsOrders.not_of_late (h : CountsOrders s) {topic : Topic}
    (hlate : (Op.handleEvent topic (some env) stamp).Late s.db) :
    ¬CountsOrders (s.step (.handleEvent topic (some env) stamp)) := by
  obtain ⟨t, u, o, ha, hterm, hcounted⟩ := applied_of_late hlate
  obtain ⟨outcome, houtcome⟩ : ∃ outcome : Terminal, o.status = outcome.status := by
    cases hst : o.status with
    | confirmed => exact ⟨.confirmed, rfl⟩
    | cancelled => exact ⟨.cancelled, rfl⟩
    | _ => simp [hst, Status.isTerminal] at hterm
  have hnext := (apply_terminal o.status t hterm).trans houtcome
  have hsome := hcounted.trans ((ha.recordTerminal_eq_some outcome).mpr hnext)
  intro h'
  have hold := h outcome
  have hnew := h' outcome
  have hnumber := ha.number outcome.status
  simp only [step, Db.step, hsome, if_true] at hnew
  rw [if_pos houtcome, if_pos hnext] at hnumber
  omega

theorem CountsOrders.handleEvent (h : CountsOrders s) {topic : Topic} {value : Option Envelope}
    (hlate : ¬(Op.handleEvent topic value stamp).Late s.db) :
    CountsOrders (s.step (.handleEvent topic value stamp)) := by
  obtain ⟨hnone, hdb⟩ | ⟨t, env, u, o, ht, rfl, ha, hcounted⟩ :=
    counted_cases s.db topic value stamp
  · refine h.congr (funext fun outcome => ?_) fun outcome => ?_
    · simp [step, hnone]
    · simp only [step, Db.step, hdb]
  · have hopen : ∀ outcome : Terminal, o.status ≠ outcome.status := by
      intro outcome hst
      refine hlate ⟨by simp [ht], ha.text, ha.fresh, o.status, ?_, ?_⟩
      · rw [Option.mem_def, ha.saga]
        exact ha.status_before
      · rw [hst]
        cases outcome <;> rfl
    intro outcome
    have hold := h outcome
    have hnumber := ha.number outcome.status
    rw [if_neg (hopen outcome)] at hnumber
    simp only [step, Db.step, hcounted, ha.recordTerminal_eq_some outcome]
    omega

/-- An operation keeps the totals right exactly if it is not late. -/
theorem countsOrders_step_iff (s : Metered) (op : Op) (h : CountsOrders s) :
    CountsOrders (s.step op) ↔ ¬op.Late s.db := by
  cases op with
  | createOrder orderId customerId sku quantity amount stamp =>
    exact ⟨fun _ hlate => hlate, fun _ => h.createOrder _ _ _ _ _ _⟩
  | handleEvent topic value stamp =>
    refine ⟨fun h' hlate => ?_, h.handleEvent⟩
    cases value with
    | none => exact hlate
    | some env => exact h.not_of_late hlate h'
  | markPublished id => exact ⟨fun _ hlate => hlate, fun _ => h.congr rfl fun _ => rfl⟩
  | markFailed id => exact ⟨fun _ hlate => hlate, fun _ => h.congr rfl fun _ => rfl⟩
  | fail => exact ⟨fun _ hlate => hlate, fun _ => h.congr rfl fun _ => rfl⟩

/-- The totals are right in every state of a run exactly if no message of the run comes
for an order that is already terminal, except as a duplicate. -/
theorem countsOrders_throughout_iff (ops : List Op) :
    Throughout step CountsOrders init ops ↔ Along step (fun s op => ¬op.Late s.db) init ops :=
  throughout_iff_along (I := fun _ => True) (fun _ _ _ => trivial)
    (fun s op _ h => countsOrders_step_iff s op h) trivial (fun outcome => by cases outcome <;> rfl)

/-- The refusal of an order overtakes the capture of its payment. -/
def overtakenRefusal : List Op :=
  [.createOrder (uuidOut 10) "customer" "SKU-1" (.lit 1) (.lit 5) (.ofKey "k1" 1),
    .handleEvent .inventoryReservationFailed (some (InventoryService.failedEvent (.ofKey "k3" 3)
      (uuidOut 10) "SKU-1" (.lit 1) "insufficient stock" "").payload) (.ofKey "k4" 4),
    .handleEvent .paymentProcessed (some (PaymentService.processedEvent (.ofKey "k2" 2)
      (uuidOut 10) 5).payload) (.ofKey "k5" 5)]

/-- One order is CANCELLED, and it is counted twice. -/
theorem not_countsOrders_overtakenRefusal :
    (runFrom step init overtakenRefusal).db.number .cancelled = 1 ∧
      (runFrom step init overtakenRefusal).total .cancelled = 2 := by
  decide +kernel

end Metered

end OrderService

/-! ## Payments -/

namespace PaymentService

/-- The number of payments of a status. -/
def Db.number (db : Db) (st : Status) : ℕ := db.payments.rows.countP fun p => p.status = st

/-- The sagas whose payment is PROCESSED. -/
def Db.processedSagas (db : Db) : List Uuid :=
  (db.payments.rows.filter (·.status = .processed)).map Payment.sagaId

/-- The service, with the totals of `payment_result_total`. -/
structure Metered where
  db : Db
  total : Status → ℕ
  /-- The sagas whose payment has ever been PROCESSED. Nothing reads it but the statements. -/
  ever : List Uuid

namespace Metered

/-- A new deployment. -/
def init : Metered := ⟨.empty, fun _ => 0, []⟩

/-- One `handle`, and what it adds to the totals. -/
def step (py : PyText) (s : Metered) (d : Delivery) : Metered :=
  match handleParsed py d.forceFailure s.db d.topic d.env d.stamp with
  | .error _ => s
  | .ok r =>
    { db := r.db
      total := fun result => s.total result + if r.counted = some result then 1 else 0
      ever := s.ever ++ r.db.processedSagas }

/-- The totals are the numbers of the payments that were ever PROCESSED, that are FAILED
and that are REFUNDED. -/
structure CountsPayments (s : Metered) : Prop where
  processed : s.total .processed = s.db.payments.rows.countP fun p => p.sagaId ∈ s.ever
  failed : s.total .failed = s.db.number .failed
  refunded : s.total .refunded = s.db.number .refunded

end Metered

/-- The saga id of a message is null, or that of a saga whose payment is not PROCESSED or that
has none. -/
def Db.Unpaid (db : Db) (sagaId : Json) : Prop :=
  sagaId = .null ∨ ∃ s u, sagaId = .str s ∧ uuidIn s = some u ∧ db.status u ≠ some .processed

/-- A compensation whose key was not processed before goes through for no PROCESSED payment. -/
def Delivery.Spurious (py : PyText) (db : Db) (d : Delivery) : Prop :=
  (d.topic = .inventoryReservationFailed ∧ py.traces d.env.traceparent) ∧
    (dataGet d.env.data "amount" (.num 0)).bind py.toFloat ≠ none ∧
    (∃ key, py.toColumn d.env.idempotencyKey = some key ∧ hasNul key = false ∧
      (key, refundConsumer) ∉ db.processed) ∧
    db.Unpaid d.env.sagaId

variable {py : PyText} {db : Db} {stamp : Stamp} {r : Handled}

theorem mem_processedSagas {u : Uuid} : u ∈ db.processedSagas ↔ db.status u = some .processed := by
  simp only [Db.processedSagas, Db.status, List.mem_map, List.mem_filter, decide_eq_true_eq,
    Option.map_eq_some_iff, Table.find?_eq_some]
  constructor
  · rintro ⟨p, ⟨hp, hst⟩, hu⟩
    exact ⟨p, ⟨hp, hu⟩, hst⟩
  · rintro ⟨p, ⟨hp, hu⟩, hst⟩
    exact ⟨p, ⟨hp, hst⟩, hu⟩

/-- A charge is counted under the status of the row that it inserts. -/
theorem charge_counted {forceFailure : Bool} {sagaId sku : String} {idem : Json}
    {amount : PyFloat} {quantity : ℤ}
    (h : charge db stamp forceFailure sagaId idem amount sku quantity = .ok r) :
    (r.counted = none ∧ r.db = db) ∨ ∃ p : Payment, p.status ≠ .refunded ∧
      r.counted = some p.status ∧ db.payments.insert p = some r.db.payments := by
  have hdone : ∀ {status : Status} {ob : Option OutboxInsert} {db' : Db},
      recordPayment db stamp sagaId amount status ob = .ok (true, db') → status ≠ .refunded →
      r.counted = some status → r.db = db' → ∃ p : Payment, p.status ≠ .refunded ∧
        r.counted = some p.status ∧ db.payments.insert p = some r.db.payments := by
    rintro status ob db' hrec hst hcounted rfl
    obtain ⟨u, -, hins, -, -⟩ := recordPayment_eq_true hrec
    exact ⟨⟨u, amount, status⟩, hst, hcounted, hins⟩
  unfold charge at h
  dsimp only at h
  split at h
  · split at h
    · exact nomatch h
    next hrec =>
      rw [Except.ok.injEq] at h
      subst h
      exact Or.inr (hdone hrec (by decide) rfl rfl)
    next hrec =>
      rw [Except.ok.injEq] at h
      subst h
      exact Or.inl ⟨rfl, (recordPayment_eq_false hrec).1⟩
  · split at h
    · exact nomatch h
    next hrec =>
      rw [Except.ok.injEq] at h
      subst h
      exact Or.inl ⟨rfl, (recordPayment_eq_false hrec).1⟩
    next hrec =>
      split at h <;>
      · rw [Except.ok.injEq] at h
        subst h
        exact Or.inr (hdone hrec (by decide) rfl rfl)

/-- A spurious compensation is counted and changes no payment. -/
theorem Delivery.Spurious.counted {d : Delivery} (h : d.Spurious py db) :
    ∃ r, handleParsed py d.forceFailure db d.topic d.env d.stamp = .ok r ∧
      r.counted = some .refunded ∧ r.db.payments = db.payments := by
  obtain ⟨⟨htopic, htrace⟩, hamount, ⟨key, hkey, htext, hfresh⟩, hunpaid⟩ := h
  obtain ⟨amount, hamount⟩ := Option.ne_none_iff_exists'.mp hamount
  refine ⟨⟨{ db with processed := (key, refundConsumer) :: db.processed },
    some .refunded, .done⟩, ?_, rfl, rfl⟩
  simp only [htopic, handleParsed, if_pos htrace, handleCompensation, hamount, hkey, refund, htext,
    markProcessed_eq_some.mpr ⟨hfresh, rfl⟩, Bool.false_eq_true, if_false]
  obtain hnull | ⟨s, u, hs, hu, hst⟩ := hunpaid
  · simp only [hnull]
  · rw [Db.status] at hst
    simp only [hs, hu, if_neg hst]

/-- What one `handle` counts : nothing, the payment that it inserts, or a refund. -/
theorem counted_cases {d : Delivery}
    (h : handleParsed py d.forceFailure db d.topic d.env d.stamp = .ok r) :
    (r.counted = none ∧ r.db.payments = db.payments) ∨
      (∃ p : Payment, p.status ≠ .refunded ∧ r.counted = some p.status ∧
        db.payments.insert p = some r.db.payments) ∨
      (r.counted = some .refunded ∧ ∃ u, db.status u = some .processed ∧
        r.db.payments = setRefunded db.payments u) ∨
      d.Spurious py db := by
  obtain ⟨-, h⟩ | ⟨htopic, h⟩ | rfl := handleParsed_eq_ok h
  · obtain ⟨sagaId, amount, sku, quantity, -, h⟩ := handleOrderCreated_eq_ok h
    obtain ⟨hnone, hdb⟩ | hp := charge_counted h
    · exact Or.inl ⟨hnone, by rw [hdb]⟩
    · exact Or.inr (Or.inl hp)
  · obtain ⟨amount, key, hamount, hkey, -, hcases⟩ := handleCompensation_cases h
    have hspurious : hasNul key = false → (key, refundConsumer) ∉ db.processed →
        db.Unpaid d.env.sagaId → d.Spurious py db := fun htext hfresh hunpaid =>
      ⟨htopic, by simp [hamount], ⟨key, hkey, htext, hfresh⟩, hunpaid⟩
    obtain ⟨hnone, hdb, -⟩ | ⟨hcounted, htext, ⟨hnull, hmissed⟩ | ⟨s, u, q, hs, hu, hc, -⟩⟩ :=
      hcases
    · exact Or.inl ⟨hnone, by rw [hdb]⟩
    · exact Or.inr (Or.inr (Or.inr (hspurious htext hmissed.fresh (Or.inl hnull))))
    by_cases hst : db.status u = some .processed
    · have htables := hc.tables
      rw [← Db.status, if_pos hst] at htables
      exact Or.inr (Or.inr (Or.inl ⟨hcounted, u, hst, htables.1⟩))
    · exact Or.inr (Or.inr (Or.inr
        (hspurious htext hc.fresh (Or.inr ⟨s, u, hs, hu, hst⟩))))
  · exact Or.inl ⟨rfl, rfl⟩

namespace Metered

variable {s : Metered}

/-- A payment was ever PROCESSED if it is captured now. -/
def Remembers (s : Metered) : Prop := ∀ u, u ∈ s.ever ↔ Captured (s.db.status u)

theorem Remembers.step (h : Remembers s) (py : PyText) (d : Delivery) :
    Remembers (s.step py d) := by
  intro u
  unfold Metered.step
  split
  · exact h u
  next r hr =>
  have hmoved : ∀ {v : Uuid} {old : Option Status} {new : Status} {eventType : String},
      Moved s.db r.db v old new eventType →
      (Captured (some new) ↔ Captured old ∨ new = .processed) →
      (u ∈ s.ever ++ r.db.processedSagas ↔ Captured (r.db.status u)) := by
    intro v old new eventType hm hnew
    rw [List.mem_append, h u, mem_processedSagas, hm.status]
    split_ifs with hv
    · rw [hnew, hv, hm.before, Option.some.injEq]
    · exact or_iff_left_of_imp Or.inl
  obtain ⟨hpay, -⟩ | ⟨v, ⟨hm, -⟩ | ⟨hm, -⟩ | ⟨hm, -⟩⟩ := handleParsed_cases hr
  · rw [List.mem_append, h u, mem_processedSagas, Db.status, Db.status, hpay]
    exact or_iff_left_of_imp Or.inl
  · exact hmoved hm (by decide)
  · exact hmoved hm (by decide)
  · exact hmoved hm (by decide)

/-- The payments that were ever PROCESSED are those that are PROCESSED or REFUNDED. -/
theorem Remembers.countP_ever (h : Remembers s) :
    (s.db.payments.rows.countP fun p => p.sagaId ∈ s.ever) =
      s.db.number .processed + s.db.number .refunded := by
  have hrow : ∀ p ∈ s.db.payments.rows,
      p.sagaId ∈ s.ever ↔ p.status = .processed ∨ p.status = .refunded := by
    intro p hp
    rw [h, Db.status, Table.mem_iff_find?.mp hp]
    simp [Captured]
  rw [List.countP_eq_countP_filter_add _ _ fun p => decide (p.status = .processed),
    List.countP_filter, List.countP_filter, Db.number, Db.number]
  congr 1
  · refine List.countP_congr fun p hp => ?_
    cases hst : p.status <;> simp [hrow p hp, hst]
  · refine List.countP_congr fun p hp => ?_
    cases hst : p.status <;> simp [hrow p hp, hst]

/-- The totals in terms of the statuses alone. -/
theorem Remembers.countsPayments_iff (h : Remembers s) : CountsPayments s ↔
    s.total .processed = s.db.number .processed + s.db.number .refunded ∧
      s.total .failed = s.db.number .failed ∧ s.total .refunded = s.db.number .refunded := by
  rw [← h.countP_ever]
  exact ⟨fun hc => ⟨hc.processed, hc.failed, hc.refunded⟩, fun ⟨hp, hf, hr⟩ => ⟨hp, hf, hr⟩⟩

theorem step_of_ok {d : Delivery}
    (h : handleParsed py d.forceFailure s.db d.topic d.env d.stamp = .ok r) :
    (s.step py d).db = r.db ∧ ∀ result, (s.step py d).total result =
      s.total result + if r.counted = some result then 1 else 0 := by
  simp [step, h]

/-- A spurious compensation is counted, and no payment has become REFUNDED. -/
theorem CountsPayments.not_of_spurious (hc : CountsPayments s) {d : Delivery}
    (hd : d.Spurious py s.db) : ¬CountsPayments (s.step py d) := by
  obtain ⟨r, hr, hcounted, hpay⟩ := hd.counted
  obtain ⟨hdb, htotal⟩ := step_of_ok hr
  intro hc'
  have hold := hc.refunded
  have hnew := hc'.refunded
  rw [htotal, hcounted, if_pos rfl, hdb, Db.number, hpay] at hnew
  rw [Db.number] at hold
  omega

/-- A call that is not spurious counts the payment that it moves. -/
theorem CountsPayments.step (hc : CountsPayments s) (hs : Remembers s) {d : Delivery}
    (hd : ¬d.Spurious py s.db) : CountsPayments (s.step py d) := by
  cases hr : handleParsed py d.forceFailure s.db d.topic d.env d.stamp with
  | error e =>
    have hstep : s.step py d = s := by simp [Metered.step, hr]
    rw [hstep]
    exact hc
  | ok r =>
  obtain ⟨hdb, htotal⟩ := step_of_ok hr
  rw [(hs.step py d).countsPayments_iff]
  obtain ⟨hprocessed, hfailed, hrefunded⟩ := hs.countsPayments_iff.mp hc
  simp only [hdb, htotal]
  obtain ⟨hnone, hpay⟩ | ⟨p, hp, hcounted, hins⟩ | ⟨hcounted, u, hst, hpay⟩ | hspurious :=
    counted_cases hr
  · simp only [hnone, Db.number, hpay, reduceCtorEq, if_false, Nat.add_zero]
    exact ⟨hprocessed, hfailed, hrefunded⟩
  · have hnumber : ∀ st, r.db.number st = s.db.number st + if p.status = st then 1 else 0 := by
      intro st
      simpa [Db.number] using Table.countP_of_insert hins fun p => decide (p.status = st)
    simp only [hcounted, hnumber, Option.some.injEq, if_neg hp]
    omega
  · obtain ⟨p, hp, hst⟩ := Option.map_eq_some_iff.mp hst
    have hnumber : ∀ st, r.db.number st + (if Status.processed = st then 1 else 0) =
        s.db.number st + if Status.refunded = st then 1 else 0 := by
      intro st
      have hcount := Table.countP_update hp (fun p => { p with status := .refunded })
        (fun _ => rfl) fun p => decide (p.status = st)
      simp only [hst, decide_eq_true_eq] at hcount
      rw [Db.number, hpay]
      exact hcount
    have h₁ := hnumber .processed
    have h₂ := hnumber .failed
    have h₃ := hnumber .refunded
    simp only [hcounted, reduceCtorEq, Option.some.injEq, if_false, if_true] at h₁ h₂ h₃ ⊢
    omega
  · exact absurd hspurious hd

/-- The totals are right in every state of a run exactly if the run has no compensation
for a saga whose payment is not PROCESSED, except as a duplicate. -/
theorem countsPayments_throughout_iff (py : PyText) (ds : List Delivery) :
    Throughout (step py) CountsPayments init ds ↔
      Along (step py) (fun s d => ¬d.Spurious py s.db) init ds :=
  throughout_iff_along (I := Remembers) (fun _ d h => h.step py d)
    (fun _ _ hs hc => ⟨fun hc' hd => hc.not_of_spurious hd hc', hc.step hs⟩)
    (fun u => by simp [init, Db.status, Db.empty, Captured]) ⟨rfl, rfl, rfl⟩

/-- The reservation of a saga fails that has no payment. -/
def unpaidCompensation : Delivery :=
  ⟨.inventoryReservationFailed, (InventoryService.failedEvent (.ofKey "k1" 1) (uuidOut 10) "SKU-1"
    (.lit 1) "insufficient stock" "").payload.parsed, false, .ofKey "k2" 2⟩

theorem counted_unpaidCompensation (py : PyText) :
    (step py init unpaidCompensation).total .refunded = 1 ∧
      (step py init unpaidCompensation).db.payments.rows = [] := by
  have hamount : dataGet unpaidCompensation.env.data "amount" (.num 0) = some (.num 0) := rfl
  have hspurious : unpaidCompensation.Spurious py init.db :=
    ⟨⟨rfl, rfl⟩, by simp [hamount, PyText.toFloat_zero],
      ⟨"k1", rfl, by decide, List.not_mem_nil⟩,
      Or.inr ⟨uuidOut 10, 10, rfl, by decide +kernel, by decide⟩⟩
  obtain ⟨r, hr, hcounted, hpay⟩ := hspurious.counted
  obtain ⟨hdb, htotal⟩ := step_of_ok hr
  rw [htotal, hcounted, hdb, hpay]
  exact ⟨rfl, rfl⟩

/-- A refund is counted, and there is no payment. The message has no text to convert. -/
theorem not_countsPayments_unpaidCompensation :
    (step noText init unpaidCompensation).total .refunded = 1 ∧
      (step noText init unpaidCompensation).db.payments.rows = [] :=
  counted_unpaidCompensation _

end Metered

end PaymentService

end Choreography
