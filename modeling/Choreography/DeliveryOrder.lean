import Choreography.OrderRuns

/-!
# The order of deliveries

The events that the other services produce for an order are one of three sets
(`Ending`). For any set of orders with their events (`Scenario`), and any sequence of
deliveries of these events in which each is handled without an error at least once, the
outcome of every order is the one of its set (`outcome_of_complete`) : it does not
depend on the order of the deliveries, on their repetition, or on the other orders.

The invariant is `Fits` : the events that an order has processed leave its status one
choice. A refusal that comes before the capture cancels at once, and otherwise the order
compensates first.
-/

namespace Choreography.OrderService

/-! ## Scenarios -/

/-- What the other services decide for an order. -/
inductive Ending
  | declined
  | reserved
  | refused

/-- The events that they produce for it. -/
def Ending.triggers : Ending → List Trigger
  | .declined => [.paymentFailed]
  | .reserved => [.paymentProcessed, .inventoryReserved]
  | .refused => [.paymentProcessed, .inventoryReservationFail, .paymentRefunded]

/-- The outcome of the order. -/
def Ending.status : Ending → Status
  | .declined => .cancelled
  | .reserved => .confirmed
  | .refused => .cancelled

/-- The order `u` has an event of the trigger `t`. -/
def Sends (ending : Uuid → Option Ending) (u : Uuid) (t : Trigger) : Prop :=
  ∃ e, ending u = some e ∧ t ∈ e.triggers

/-- A set of orders, with the events of one ending for each, under distinct keys. -/
structure Scenario where
  ending : Uuid → Option Ending
  env : Uuid → Trigger → Envelope
  saga : ∀ u t, Sends ending u t → uuidIn (env u t).sagaId = some u
  keys : ∀ u t u' t', Sends ending u t → Sends ending u' t' →
    (env u t).idempotencyKey = (env u' t').idempotencyKey → u = u' ∧ t = t'

namespace Scenario

variable (sc : Scenario)

/-- The delivery of an event of the scenario. -/
structure Delivery where
  order : Uuid
  trigger : Trigger
  sends : Sends sc.ending order trigger
  stamp : Stamp

/-- `Service.HandleEvent` on a delivery. -/
def deliver (db : Db) (d : sc.Delivery) : Handled :=
  handleEvent db d.trigger.topic (some (sc.env d.order d.trigger)) d.stamp

def step (db : Db) (d : sc.Delivery) : Db := (sc.deliver db d).db

/-- The orders are new : PENDING, with no event processed and none cancelled. -/
structure Starts (db : Db) : Prop where
  pending : ∀ u e, sc.ending u = some e → db.status u = some .pending
  fresh : ∀ u t, Sends sc.ending u t →
    ((sc.env u t).idempotencyKey, consumerName) ∉ db.processed
  retracted : ∀ u e, sc.ending u = some e → db.cancellations u = 0

/-- Every event is delivered at least once with the result nil. -/
def Complete (db : Db) (ds : List sc.Delivery) : Prop :=
  ∀ u t, Sends sc.ending u t → ∃ pre d post, ds = pre ++ d :: post ∧ d.order = u ∧
    d.trigger = t ∧ (sc.deliver (runFrom sc.step db pre) d).err = none

/-! ## Processed events and the status -/

/-- The status of an order with the ending `e` that has processed the events `seen`. -/
def Fits : Ending → Status → (Trigger → Bool) → Prop
  | .declined, .pending, seen => seen .paymentFailed = false
  | .declined, .cancelled, seen => seen .paymentFailed = true
  | .reserved, .pending, seen =>
    seen .paymentProcessed = false ∧ seen .inventoryReserved = false
  | .reserved, .paymentOk, seen =>
    seen .paymentProcessed = true ∧ seen .inventoryReserved = false
  | .reserved, .confirmed, seen =>
    seen .paymentProcessed = true ∧ seen .inventoryReserved = true
  | .refused, .pending, seen =>
    seen .paymentProcessed = false ∧ seen .inventoryReservationFail = false ∧
      seen .paymentRefunded = false
  | .refused, .paymentOk, seen =>
    seen .paymentProcessed = true ∧ seen .inventoryReservationFail = false ∧
      seen .paymentRefunded = false
  | .refused, .compensating, seen =>
    seen .paymentProcessed = true ∧ seen .inventoryReservationFail = true ∧
      seen .paymentRefunded = false
  -- the refusal may have overtaken the capture
  | .refused, .cancelled, seen => seen .inventoryReservationFail = true
  | _, _, _ => False

variable {e : Ending} {st : Status} {seen : Trigger → Bool} {t : Trigger}

/-- No event of the ending is invalid before it is processed. -/
theorem Fits.valid (h : Fits e st seen) (ht : t ∈ e.triggers) (hnew : seen t = false) :
    (apply st t).2 ≠ some .invalidTransition := by
  cases e <;> cases st <;> cases t <;>
    simp_all [Fits, Ending.triggers, OrderService.apply]

theorem Fits.apply (h : Fits e st seen) (ht : t ∈ e.triggers) (hnew : seen t = false)
    (hok : (apply st t).2 = none) :
    Fits e (OrderService.apply st t).1.next (Function.update seen t true) := by
  cases e <;> cases st <;> cases t <;>
    simp_all [Fits, Ending.triggers, OrderService.apply, Function.update]

theorem Fits.congr {seen' : Trigger → Bool} (h : Fits e st seen)
    (heq : ∀ t ∈ e.triggers, seen' t = seen t) : Fits e st seen' := by
  cases e <;> cases st <;> simp_all [Fits, Ending.triggers]

/-- An order that has processed all its events has reached its outcome. -/
theorem Fits.status (h : Fits e st seen) (hall : ∀ t ∈ e.triggers, seen t = true) :
    st = e.status := by
  cases e <;> cases st <;> simp_all [Fits, Ending.triggers, Ending.status]

/-! ## Runs -/

variable {sc} {db : Db}

/-- The order `u` has processed the event of the trigger `t`. -/
def processed (sc : Scenario) (db : Db) (u : Uuid) (t : Trigger) : Bool :=
  ((sc.env u t).idempotencyKey, consumerName) ∈ db.processed

/-- The status of every order fits the events that it has processed. -/
def Fitting (sc : Scenario) (db : Db) : Prop :=
  ∀ u e, sc.ending u = some e → ∃ st, db.status u = some st ∧ Fits e st (sc.processed db u)

theorem Starts.fitting (h : sc.Starts db) : sc.Fitting db := by
  intro u e he
  refine ⟨.pending, h.pending u e he, ?_⟩
  have hseen : ∀ t ∈ e.triggers, sc.processed db u t = false := fun t ht =>
    decide_eq_false (h.fresh u t ⟨e, he, ht⟩)
  cases e <;> simp_all [Fits, Ending.triggers]

/-- A delivery fails and changes nothing, or its event is processed already, or it is
applied now. -/
theorem Fitting.deliver_cases (h : sc.Fitting db) (d : sc.Delivery) :
    (sc.step db d = db ∧
      ((sc.deliver db d).err ≠ none ∨ sc.processed db d.order d.trigger = true)) ∨
      ∃ o, Applied db d.trigger (sc.env d.order d.trigger) d.stamp d.order o (sc.step db d) := by
  have ht := topicTrigger_eq_some.mpr (rfl : d.trigger.topic = d.trigger.topic)
  have hu := sc.saga _ _ d.sends
  obtain ⟨e, he, htr⟩ := d.sends
  obtain ⟨st, hst, hfits⟩ := h d.order e he
  obtain ⟨hdb, herr⟩ | ⟨hdb, hm⟩ | ⟨-, hdrop⟩ | ⟨-, u, o, ha⟩ :=
    handleEvent_cases db ht (sc.env d.order d.trigger) d.stamp
  · exact Or.inl ⟨hdb, Or.inl herr⟩
  · exact Or.inl ⟨hdb, Or.inr (decide_eq_true hm)⟩
  · -- the order exists, and its event is not invalid
    exfalso
    obtain ⟨u, hu', hnone⟩ | ⟨hfresh, u, o, hu', ho, hinv⟩ := hdrop
    · obtain rfl : u = d.order := Option.some.inj (hu'.symm.trans hu)
      rw [Db.status, hnone] at hst
      cases hst
    · obtain rfl : u = d.order := Option.some.inj (hu'.symm.trans hu)
      rw [Db.status, ho] at hst
      obtain rfl : o.status = st := Option.some.inj hst
      exact hfits.valid htr (decide_eq_false hfresh) hinv
  · obtain rfl : u = d.order := Option.some.inj (ha.saga.symm.trans hu)
    exact Or.inr ⟨o, ha⟩

theorem processed_applied {d : sc.Delivery} {o : Order} {db' : Db}
    (ha : Applied db d.trigger (sc.env d.order d.trigger) d.stamp d.order o db')
    {u : Uuid} {t : Trigger} (hs : Sends sc.ending u t) :
    sc.processed db' u t = if u = d.order ∧ t = d.trigger then true else sc.processed db u t := by
  unfold processed
  rw [ha.processed]
  split_ifs with hc
  · rw [hc.1, hc.2]
    exact decide_eq_true List.mem_cons_self
  · have hne : ((sc.env u t).idempotencyKey, consumerName) ≠
        ((sc.env d.order d.trigger).idempotencyKey, consumerName) := by
      intro heq
      exact hc (sc.keys _ _ _ _ hs d.sends (Prod.mk.inj heq).1)
    simp [List.mem_cons, hne]

theorem Fitting.step (h : sc.Fitting db) (d : sc.Delivery) : sc.Fitting (sc.step db d) := by
  obtain ⟨hdb, -⟩ | ⟨o, ha⟩ := h.deliver_cases d
  · rw [hdb]
    exact h
  · intro u e he
    obtain ⟨st, hst, hfits⟩ := h u e he
    have hseen : ∀ t ∈ e.triggers, sc.processed (sc.step db d) u t = _ := fun t ht =>
      processed_applied ha ⟨e, he, ht⟩
    by_cases hu : u = d.order
    · subst hu
      obtain ⟨e', he', ht⟩ := d.sends
      obtain rfl : e' = e := Option.some.inj (he'.symm.trans he)
      obtain rfl : o.status = st := Option.some.inj (ha.status_before.symm.trans hst)
      refine ⟨_, by rw [ha.status, if_pos rfl],
        (hfits.apply ht (decide_eq_false ha.fresh) ha.accepted).congr fun t' ht' => ?_⟩
      rw [hseen t' ht', Function.update_apply]
      simp
    · refine ⟨st, by rw [ha.status, if_neg hu, hst], hfits.congr fun t' ht' => ?_⟩
      rw [hseen t' ht', if_neg fun hc => hu hc.1]

/-- An event that is handled with the result nil is processed from then on. -/
theorem Fitting.processed_of_delivered (h : sc.Fitting db) {d : sc.Delivery}
    (herr : (sc.deliver db d).err = none) :
    sc.processed (sc.step db d) d.order d.trigger = true := by
  obtain ⟨hdb, hne | hm⟩ | ⟨o, ha⟩ := h.deliver_cases d
  · exact absurd herr hne
  · rw [hdb, hm]
  · rw [processed_applied ha d.sends, if_pos ⟨rfl, rfl⟩]

/-- A delivery is an operation of the service. -/
theorem step_eq (db : Db) (d : sc.Delivery) : sc.step db d =
    db.step (.handleEvent d.trigger.topic (some (sc.env d.order d.trigger)) d.stamp) := rfl

theorem fitting_run (h : sc.Fitting db) (ds : List sc.Delivery) :
    sc.Fitting (runFrom sc.step db ds) :=
  invariant_runFrom (fun _ d h => h.step d) ds h

theorem processed_run {u : Uuid} {t : Trigger} (h : sc.processed db u t = true)
    (ds : List sc.Delivery) : sc.processed (runFrom sc.step db ds) u t = true := by
  refine invariant_runFrom (I := fun db : Db => sc.processed db u t = true) (fun db d hp => ?_) ds h
  rw [step_eq]
  exact decide_eq_true (processed_subset_step _ _ (of_decide_eq_true hp))

theorem retracted_run {u : Uuid} (h : Retracted db u) (ds : List sc.Delivery) :
    Retracted (runFrom sc.step db ds) u := by
  refine invariant_runFrom (I := fun db : Db => Retracted db u) (fun db d hr => ?_) ds h
  rw [step_eq]
  exact hr.step _

/-- After a complete sequence of deliveries every event is processed. -/
theorem Complete.processed {ds : List sc.Delivery} (hc : sc.Complete db ds) (h : sc.Fitting db)
    {u : Uuid} {t : Trigger} (hs : Sends sc.ending u t) :
    sc.processed (runFrom sc.step db ds) u t = true := by
  obtain ⟨pre, d, post, rfl, rfl, rfl, herr⟩ := hc u t hs
  rw [runFrom_append, runFrom_cons]
  exact processed_run ((fitting_run h pre).processed_of_delivered herr) post

/-- The outcome of an order, and its announcement. -/
def Outcome (db : Db) (u : Uuid) (e : Ending) : Prop :=
  db.status u = some e.status ∧
    db.cancellations u = if e.status = .cancelled then 1 else 0

theorem Complete.outcome {ds : List sc.Delivery} (hc : sc.Complete db ds) (h : sc.Starts db)
    {u : Uuid} {e : Ending} (he : sc.ending u = some e) :
    Outcome (runFrom sc.step db ds) u e := by
  obtain ⟨st, hst, hfits⟩ := fitting_run h.fitting ds u e he
  obtain rfl : st = e.status := hfits.status fun t ht => hc.processed h.fitting ⟨e, he, ht⟩
  have hretracted : Retracted db u := by
    rw [Retracted, h.retracted u e he, h.pending u e he]
    rfl
  have hcount := retracted_run hretracted ds
  rw [Retracted, hst] at hcount
  refine ⟨hst, hcount.trans (if_congr ?_ rfl rfl)⟩
  simp

end Scenario

/-- After every sequence of deliveries in which each event is handled without an error at
least once, each order is CONFIRMED or CANCELLED as its events say, with one OrderCancelled
if it is CANCELLED and none otherwise; any two such sequences agree. -/
theorem outcome_of_complete (sc : Scenario) (db : Db) (hstart : sc.Starts db)
    (ds ds' : List sc.Delivery) (hds : sc.Complete db ds) (hds' : sc.Complete db ds') (u : Uuid)
    (e : Ending) (he : sc.ending u = some e) :
    (runFrom sc.step db ds).status u = some e.status ∧
      (runFrom sc.step db ds).cancellations u = (if e.status = .cancelled then 1 else 0) ∧
      (runFrom sc.step db ds').status u = (runFrom sc.step db ds).status u ∧
      (runFrom sc.step db ds').cancellations u = (runFrom sc.step db ds).cancellations u := by
  obtain ⟨hst, hcount⟩ := hds.outcome hstart he
  obtain ⟨hst', hcount'⟩ := hds'.outcome hstart he
  exact ⟨hst, hcount, hst'.trans hst.symm, hcount'.trans hcount.symm⟩

/-- Two orders : 10 is refused, and 11 is reserved. -/
def twoEndings (u : Uuid) : Option Ending :=
  if u = 10 then some .refused else if u = 11 then some .reserved else none

/-- Their events. -/
def twoEvents : List (Uuid × Trigger) :=
  [(10, .paymentProcessed), (10, .inventoryReservationFail), (10, .paymentRefunded),
    (11, .paymentProcessed), (11, .inventoryReserved)]

theorem mem_twoEvents {u : Uuid} {t : Trigger} (h : Sends twoEndings u t) :
    (u, t) ∈ twoEvents := by
  obtain ⟨e, he, ht⟩ := h
  unfold twoEndings at he
  split_ifs at he with h10 h11
  · obtain rfl := Option.some.inj he
    subst h10
    revert ht
    cases t <;> decide
  · obtain rfl := Option.some.inj he
    subst h11
    revert ht
    cases t <;> decide

/-- A key for every event, and the saga of the order. -/
def twoEnv (u : Uuid) (t : Trigger) : Envelope :=
  Envelope.new (.ofKey (uuidOut (twoEvents.idxOf (u, t))) 0 (hasNul_uuidOut _)) "" (uuidOut u)
    "" .null

def twoOrders : Scenario where
  ending := twoEndings
  env := twoEnv
  saga := by
    intro u t h
    have hall : ∀ p ∈ twoEvents, uuidIn (twoEnv p.1 p.2).sagaId = some p.1 := by decide +kernel
    exact hall (u, t) (mem_twoEvents h)
  keys := by
    intro u t u' t' h h' hkey
    have hall : ∀ p ∈ twoEvents, ∀ p' ∈ twoEvents,
        (twoEnv p.1 p.2).idempotencyKey = (twoEnv p'.1 p'.2).idempotencyKey → p = p' := by
      decide +kernel
    exact Prod.mk.inj (hall (u, t) (mem_twoEvents h) (u', t') (mem_twoEvents h') hkey)

/-- The delivery of an event of the two orders. -/
def twoDelivery (u : Uuid) (t : Trigger) (h : Sends twoEndings u t) : twoOrders.Delivery :=
  ⟨u, t, h, .ofKey "" (100 + twoEvents.idxOf (u, t))⟩

/-- The refusal overtakes the capture, which is then absorbed. -/
def twoDeliveries : List twoOrders.Delivery :=
  [twoDelivery 11 .inventoryReserved ⟨_, rfl, by decide⟩,
    twoDelivery 10 .inventoryReservationFail ⟨_, rfl, by decide⟩,
    twoDelivery 11 .paymentProcessed ⟨_, rfl, by decide⟩,
    twoDelivery 10 .paymentProcessed ⟨_, rfl, by decide⟩,
    twoDelivery 10 .paymentRefunded ⟨_, rfl, by decide⟩,
    twoDelivery 11 .inventoryReserved ⟨_, rfl, by decide⟩]

/-- The two orders are created. -/
def twoCreated : Db :=
  runFrom Db.step .empty
    [.createOrder (uuidOut 10) "customer" "SKU-1" (.lit 1) (.lit 5) (.ofKey "k1" 1),
      .createOrder (uuidOut 11) "customer" "SKU-1" (.lit 1) (.lit 5) (.ofKey "k2" 2)]

theorem starts_two : twoOrders.Starts twoCreated := by
  have hpending : ∀ p ∈ twoEvents, twoCreated.status p.1 = some .pending ∧
      ((twoEnv p.1 p.2).idempotencyKey, consumerName) ∉ twoCreated.processed ∧
      twoCreated.cancellations p.1 = 0 := by
    decide +kernel
  have hmem : ∀ u e, twoEndings u = some e → (u, .paymentProcessed) ∈ twoEvents := by
    intro u e he
    refine mem_twoEvents ⟨e, he, ?_⟩
    unfold twoEndings at he
    split_ifs at he
    · exact Option.some.inj he ▸ List.mem_cons_self
    · exact Option.some.inj he ▸ List.mem_cons_self
  exact ⟨fun u e he => (hpending _ (hmem u e he)).1,
    fun u t h => (hpending _ (mem_twoEvents h)).2.1,
    fun u e he => (hpending _ (hmem u e he)).2.2⟩

/-- InventoryReserved of 11 is premature at first, and is handled when it comes again. -/
theorem complete_two : twoOrders.Complete twoCreated twoDeliveries := by
  intro u t h
  have hall : ∀ p ∈ twoEvents, ∃ i ∈ List.range 6, ∃ d ∈ twoDeliveries[i]?,
      (d.order, d.trigger) = p ∧
      (twoOrders.deliver (runFrom twoOrders.step twoCreated (twoDeliveries.take i)) d).err =
        none := by
    decide +kernel
  obtain ⟨i, -, d, hd, hp, herr⟩ := hall (u, t) (mem_twoEvents h)
  obtain ⟨rfl, rfl⟩ := Prod.mk.inj hp
  obtain ⟨hi, rfl⟩ := List.getElem?_eq_some_iff.mp hd
  refine ⟨twoDeliveries.take i, _, twoDeliveries.drop (i + 1), ?_, rfl, rfl, herr⟩
  rw [← List.drop_eq_getElem_cons hi, List.take_append_drop]

theorem outcome_of_complete_two :
    (runFrom twoOrders.step twoCreated twoDeliveries).status 10 = some .cancelled ∧
      (runFrom twoOrders.step twoCreated twoDeliveries).cancellations 10 = 1 ∧
      (runFrom twoOrders.step twoCreated twoDeliveries).status 11 = some .confirmed ∧
      (runFrom twoOrders.step twoCreated twoDeliveries).cancellations 11 = 0 := by
  obtain ⟨h10, hc10, -⟩ := outcome_of_complete twoOrders twoCreated starts_two twoDeliveries
    twoDeliveries complete_two complete_two 10 .refused rfl
  obtain ⟨h11, hc11, -⟩ := outcome_of_complete twoOrders twoCreated starts_two twoDeliveries
    twoDeliveries complete_two complete_two 11 .reserved rfl
  exact ⟨h10, hc10, h11, hc11⟩

end Choreography.OrderService
