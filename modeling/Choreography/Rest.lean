import Choreography.Agreement

/-!
# The system at rest

A state is at rest when the relays have published every event, every consumer has handled
every message, and no handler or request is in progress (`Quiescent`). If no call of
ReserveStock was lost on the way (`Lossless`), every order has then been confirmed and
holds its stock, or been cancelled and left nothing behind (`no_residue_at_rest`).

A captured payment that Payment has handled has its verdict, unless the call of
ReserveStock was cut off (`decided_of_handled`) : Payment logs a transport error and goes
on, and a redelivered message does not call again (`not_decided_dropped`).
-/

namespace Choreography.System

open PaymentService (PyText noText)

variable {s : System} {u : Uuid} {l : Label} {stock : InventoryService.Stock}

/-! ## Payments and calls -/

/-- Only Payment's handler moves a payment on. -/
theorem paymentStatus_step (py : PyText) (s : System)
    (hl : ∀ r forceFailure stamp, l ≠ .paymentHandle r forceFailure stamp) (u : Uuid) :
    (step py s l).paymentStatus u = s.paymentStatus u := by
  by_cases hw : l.commits = some .payment
  · cases l with
    | paymentHandle r forceFailure stamp => exact absurd rfl (hl r forceFailure stamp)
    | _ => simp [Label.commits] at hw
  · rw [paymentStatus, (payment_frame py s hw).1]
    rfl

/-- A captured payment stays captured, and another is captured only by Payment's handler. -/
theorem published_of_step (py : PyText) (s : System)
    (hl : ∀ r forceFailure stamp, l ≠ .paymentHandle r forceFailure stamp)
    (h : ((step py s l).facts.saga u).Published .paymentProcessed) :
    (s.facts.saga u).Published .paymentProcessed := by
  have heq : ((step py s l).facts.saga u).payment = (s.facts.saga u).payment :=
    paymentStatus_step py s hl u
  simpa only [Saga.Published, heq] using h

/-- The message whose call Payment has still to make. -/
def toCall (s : System) : Option Record :=
  match s.working with
  | some ⟨r, .reserve _⟩ => some r
  | _ => none

/-- No call of ReserveStock is lost : no request is dropped, and Payment does not crash
before it makes the call. -/
def Lossless (s : System) : Label → Prop
  | .drop req => req ∉ s.requests
  | .crash => s.toCall = none
  | _ => True

instance (s : System) : (l : Label) → Decidable (s.Lossless l)
  | .drop req => inferInstanceAs (Decidable (req ∉ s.requests))
  | .crash => inferInstanceAs (Decidable (s.toCall = none))
  | .createOrder .. | .publish .. | .markPublished .. | .markFailed .. | .orderHandle ..
  | .paymentHandle .. | .call | .serve .. | .reply | .fail | .commitOffset | .inventoryHandle .. =>
    inferInstanceAs (Decidable True)

/-- A captured payment without a verdict has its call pending. -/
def Called (s : System) : Prop :=
  ∀ u, (s.facts.saga u).Published .paymentProcessed → (s.facts.saga u).verdict = none →
    ∃ req ∈ s.pending, uuidIn req.sagaId = some u

/-- A pending call stays pending until it is answered. -/
theorem Inv.pending_step (h : s.Inv) (py : PyText) (hl : s.Lossless l)
    (hok : ∀ req ∈ s.requests, ∀ newId stamp, s.Fresh .inventory stamp →
      ∃ x, InventoryService.Server.reserveStock s.inventory newId stamp req = .ok x)
    (hpay : ∀ r forceFailure stamp, l ≠ .paymentHandle r forceFailure stamp)
    {req : ReserveStockRequest} (hp : req ∈ s.pending) :
    req ∈ (System.step py s l).pending ∨ (System.step py s l).facts.Decided req := by
  by_cases hcalls : l.calls = false
  · obtain ⟨hw, hreq⟩ := step_calls py s hcalls
    exact Or.inl (by simpa only [pending, hw, hreq] using hp)
  rw [mem_pending] at hp ⊢
  cases l with
  | paymentHandle r forceFailure stamp => exact absurd rfl (hpay r forceFailure stamp)
  | call =>
    left
    rcases step_call py s with heq | ⟨r', req', hw, heq⟩ <;> rw [heq]
    · exact hp
    · rcases hp with ⟨r, hp⟩ | hp
      · rw [hw, Option.some.injEq, Handler.mk.injEq, Stage.reserve.injEq] at hp
        exact Or.inr (hp.2 ▸ List.mem_cons_self)
      · exact Or.inr (List.mem_cons_of_mem _ hp)
  | serve req' newId stamp =>
    rcases step_serve h py req' newId stamp with heq | ⟨hreq, hf, ⟨e, he⟩, -⟩ |
      ⟨r', db, -, -, -, -, -, hd, heq⟩
    · exact Or.inl (by rwa [heq])
    · obtain ⟨x, hx⟩ := hok req' hreq newId stamp hf
      simp [hx] at he
    · rw [heq]
      by_cases hreq : req = req'
      · exact Or.inr (hreq ▸ hd)
      · exact Or.inl (hp.imp_right (List.mem_erase_of_ne hreq).mpr)
  | drop req' =>
    left
    refine hp.imp_right fun hp => (List.mem_erase_of_ne ?_).mpr hp
    rintro rfl
    exact hl hp
  | reply =>
    left
    rcases step_reply py s with heq | ⟨r', req', hw, -, heq⟩ <;> rw [heq]
    · exact hp
    · exact Or.inr (hp.resolve_left (by simp [hw]))
  | fail =>
    left
    rcases step_fail py s with heq | ⟨r', req', hw, heq⟩ <;> rw [heq]
    · exact hp
    · exact Or.inr (hp.resolve_left (by simp [hw]))
  | commitOffset =>
    left
    rcases step_commitOffset py s with heq | ⟨r', hw, heq⟩ <;> rw [heq]
    · exact hp
    · exact Or.inr (hp.resolve_left (by simp [hw]))
  | crash =>
    refine Or.inl (Or.inr (hp.resolve_left ?_))
    rintro ⟨r, hw⟩
    simp [Lossless, toCall, hw] at hl
  | _ => exact absurd rfl hcalls

theorem Inv.called_step (h : s.Inv) (py : PyText) (hl : s.Lossless l)
    (hok : ∀ req ∈ s.requests, ∀ newId stamp, s.Fresh .inventory stamp →
      ∃ x, InventoryService.Server.reserveStock s.inventory newId stamp req = .ok x)
    (hcalled : s.Called) : (System.step py s l).Called := by
  intro u hpub hv
  have hv₀ : (s.facts.saga u).verdict = none := by
    by_contra hv'
    exact (h.step_extends py l).verdict hv' hv
  by_cases hpay : ∀ r forceFailure stamp, l ≠ .paymentHandle r forceFailure stamp
  · obtain ⟨req, hp, hu⟩ := hcalled u (published_of_step py s hpay hpub) hv₀
    rcases h.pending_step py hl hok hpay hp with hp | ⟨u', hu', hd⟩
    · exact ⟨req, hp, hu⟩
    · rw [Option.some.inj (hu'.symm.trans hu)] at hd
      exact absurd hv hd
  · push Not at hpay
    obtain ⟨r, forceFailure, stamp, rfl⟩ := hpay
    -- Payment was idle, so that a pending call has its request on the way
    have hidle : s.working = none → (s.facts.saga u).Published .paymentProcessed →
        ∀ db h, ∃ req ∈ pending { s with payment := db, working := h },
          uuidIn req.sagaId = some u := by
      intro hw hpub' db h
      obtain ⟨req, hp, hu⟩ := hcalled u hpub' hv₀
      have hreq := (mem_pending.mp hp).resolve_left (by simp [hw])
      exact ⟨req, mem_pending.mpr (Or.inr hreq), hu⟩
    rcases step_paymentHandle h py r forceFailure stamp with heq | ⟨hw, -, heq⟩ |
      ⟨hd, hw, -, -, -, hnext, heq⟩ <;> rw [heq] at hpub ⊢
    · exact hcalled u hpub hv₀
    · exact hidle hw hpub _ _
    · cases hn : hd.next with
      | done =>
        rw [hn] at hnext
        exact hidle hw (hnext u hpub) _ _
      | reserve req =>
        rw [hn] at hnext
        rcases hnext.2 u hpub with hpub' | hu
        · exact hidle hw hpub' _ _
        · exact ⟨req, mem_pending.mpr (Or.inl ⟨r, rfl⟩), hnext.1.saga_eq.trans hu⟩
      | raise =>
        rw [hn] at hnext
        exact hnext.elim

/-! ## Stock -/

open InventoryService (Stock Sound Accounted)

/-- The stock is sound and accounted for, and the orders are such as CreateOrder accepts. -/
structure Stocked (stock : Stock) (s : System) : Prop where
  sound : Sound stock s.inventory
  accounted : Accounted s.inventory
  accepted : ∀ u o, s.order.orders.find? u = some o → o.Accepted

theorem Inv.accepted_step (h : s.Inv) (py : PyText) (l : Label)
    (hacc : ∀ u o, s.order.orders.find? u = some o → o.Accepted) (u : Uuid)
    (o : OrderService.Order) (ho : (System.step py s l).order.orders.find? u = some o) :
    o.Accepted := by
  by_cases hw : l.commits = some .order
  · cases l with
    | createOrder req orderId stamp =>
      rcases step_createOrder py s req orderId stamp with heq | ⟨db, -, hok, heq⟩ <;>
        rw [heq] at ho
      · exact hacc u o ho
      · obtain ⟨hq, u', -, hins, -⟩ := OrderService.createOrder_eq_ok hok
        rw [show ({ s with order := db } : System).order.orders.find? u = _ from
          Table.find?_of_insert hins u] at ho
        split_ifs at ho
        · rw [← Option.some.inj ho]
          exact ⟨hq.1, hq.2⟩
        · exact hacc u o ho
    | orderHandle r stamp acked =>
      rcases step_orderHandle h py r stamp acked with heq | ⟨-, heq⟩ |
        ⟨db, -, -, -, -, ⟨t, u', o', hun, -, horders, -⟩, heq⟩ <;> rw [heq] at ho
      · exact hacc u o ho
      · exact hacc u o ho
      · rw [show db.orders = _ from horders, OrderService.find?_setStatus] at ho
        split_ifs at ho
        · obtain ⟨o₀, ho₀, rfl⟩ := Option.map_eq_some_iff.mp ho
          exact ⟨(hacc u' o₀ ho₀).positive, (hacc u' o₀ ho₀).text⟩
        · exact hacc u o ho
    | _ => simp [Label.commits] at hw
  · rw [order_frame py s hw] at ho
    exact hacc u o ho

/-- Inventory serves a request : a saga takes stock once, and never what is not there. -/
theorem Stocked.serve (h : s.Inv) (hs : Stocked stock s) {r : Record} {req : ReserveStockRequest}
    (hc : s.facts.Calls r req) {newId : Uuid} {stamp : Stamp}
    {result : InventoryService.ReserveResult} {db : InventoryService.Db}
    (hok : InventoryService.Server.reserveStock s.inventory newId stamp req = .ok (result, db)) :
    Sound stock db ∧ Accounted db := by
  obtain ⟨u, o, hu, ho, hpub, rfl⟩ := hc.request
  have hq := (hs.accepted u o ho).positive
  obtain ⟨rfl, -⟩ | ⟨-, -, -, href⟩ | ⟨-, -, -, u', hu', -, ht⟩ :=
    InventoryService.reserveStock_cases hok
  · exact ⟨hs.sound, hs.accounted⟩
  · refine ⟨hs.sound.congr href.stock href.reservations, fun sku => ?_⟩
    rw [href.stock, href.reservations]
    exact hs.accounted sku
  · refine ⟨hs.sound.takes ht (Or.inl hq), ?_⟩
    obtain rfl : u' = u := Option.some.inj (hu'.symm.trans hu)
    refine (InventoryService.accounted_takes_iff hs.accounted ht hq).mpr ?_
    refine h.consistent.unreserved u' fun hv => ht.fresh ?_
    rw [cString_of_hasNul (h.consistent.text r ⟨.order, hc.committed⟩)]
    exact (h.consistent.decided r hc.committed hc.topic u' hu).mpr (by simp [hv])

theorem Inv.stocked_step (h : s.Inv) (py : PyText) (l : Label) (hs : Stocked stock s) :
    Stocked stock (System.step py s l) := by
  have hacc := h.accepted_step py l hs.accepted
  by_cases hw : l.commits = some .inventory
  · cases l with
    | serve req newId stamp =>
      rcases step_serve h py req newId stamp with heq | ⟨-, -, -, heq⟩ |
        ⟨r, db, -, -, hcall, ⟨result, hok⟩, -, -, heq⟩ <;> rw [heq] at hacc ⊢
      · exact hs
      · exact ⟨hs.sound, hs.accounted, hacc⟩
      · obtain ⟨hsound, haccounted⟩ := hs.serve h hcall hok
        exact ⟨hsound, haccounted, hacc⟩
    | inventoryHandle r stamp acked =>
      rcases step_inventoryHandle h py r stamp acked with heq | ⟨-, heq⟩ |
        ⟨outcome, db, -, -, -, hstock, hres, heq⟩ <;> rw [heq] at hacc ⊢
      · exact hs
      · exact ⟨hs.sound, hs.accounted, hacc⟩
      · refine ⟨hs.sound.congr hstock hres, fun sku => ?_, hacc⟩
        rw [hstock, hres]
        exact hs.accounted sku
    | _ => simp [Label.commits] at hw
  · obtain ⟨hstock, hres, -⟩ := inventory_frame py s hw
    refine ⟨hs.sound.congr hstock hres, fun sku => ?_, hacc⟩
    rw [hstock, hres]
    exact hs.accounted sku

/-- Inventory answers every request of Payment. -/
theorem Stocked.exists_reserveStock (h : s.Inv) (hs : Stocked stock s)
    (h₀ : ∀ sku, InventoryService.reserved stock sku = 0) :
    ∀ req ∈ s.requests, ∀ newId stamp, s.Fresh .inventory stamp →
      ∃ x, InventoryService.Server.reserveStock s.inventory newId stamp req = .ok x := by
  intro req hreq newId stamp hf
  obtain ⟨r, hc⟩ := h.control.requests req hreq
  obtain ⟨u, o, hu, ho, -, rfl⟩ := hc.request
  have hacc := hs.accepted u o ho
  refine InventoryService.exists_reserveStock (fun henough => ?_) hu hf.2
    stamp.hasNul_traceparent hacc.text
  exact hs.sound.exists_moveStock_take h₀ hacc.positive henough

theorem stocked_init (h₀ : ∀ sku, InventoryService.reserved stock sku = 0) :
    Stocked stock (init stock) where
  sound := @Sound.init (InventoryService.Db.ofStock stock) rfl fun sku => (h₀ sku).ge
  accounted := h₀
  accepted _ _ ho := by simp [init, OrderService.Db.empty] at ho

theorem stocked_run (h₀ : ∀ sku, InventoryService.reserved stock sku = 0) (py : PyText)
    (ls : List Label) : Stocked stock (runFrom (System.step py) (init stock) ls) :=
  (invariant_runFrom (I := fun s : System => s.Inv ∧ Stocked stock s)
    (fun _ l h => ⟨h.1.step py l, h.1.stocked_step py l h.2⟩) ls
    ⟨inv_init stock, stocked_init h₀⟩).2

/-- A captured payment without a verdict has its call pending, in every state of a run without
losses. -/
theorem called_run (h₀ : ∀ sku, InventoryService.reserved stock sku = 0) (py : PyText)
    {ls : List Label} (hl : Along (System.step py) Lossless (init stock) ls) :
    (runFrom (System.step py) (init stock) ls).Called := by
  refine (throughout_of_along (I := fun s : System => s.Inv ∧ Stocked stock s ∧ s.Called)
    ?_ ?_ hl).last.2.2
  · rintro s l ⟨h, hs, hc⟩ hl
    exact ⟨h.step py l, h.stocked_step py l hs,
      h.called_step py hl (hs.exists_reserveStock h h₀) hc⟩
  · refine ⟨inv_init stock, stocked_init h₀, ?_⟩
    rintro u (hp | hp) <;> exact absurd hp (by simp [Facts.saga, facts, factsOf, init,
      PaymentService.Db.empty])

/-! ## Relays -/

/-- Every transaction adds PENDING rows only. -/
theorem Inv.enqueued_step (h : s.Inv) (py : PyText)
    (hl : ∀ svc id, l ≠ .markPublished svc id ∧ l ≠ .markFailed svc id) (svc : Service) :
    Enqueued (s.outbox svc) ((System.step py s l).outbox svc) := by
  by_cases hw : l.writes = some svc
  · cases l with
    | createOrder req orderId stamp =>
      obtain rfl : Service.order = svc := Option.some.inj hw
      rcases step_createOrder py s req orderId stamp with heq | ⟨db, -, hok, heq⟩ <;> rw [heq]
      · exact Or.inl rfl
      · obtain ⟨-, u, -, -, -, hb⟩ := OrderService.createOrder_eq_ok hok
        exact enqueued_of_insertOutbox hb
    | orderHandle r stamp acked =>
      obtain rfl : Service.order = svc := Option.some.inj hw
      rcases step_orderHandle h py r stamp acked with heq | ⟨-, heq⟩ |
        ⟨db, -, hdb, -, -, -, heq⟩ <;> rw [heq]
      · exact Or.inl rfl
      · exact Or.inl rfl
      · exact hdb ▸ OrderService.enqueued_handleEvent s.order r.topic r.value stamp
    | paymentHandle r forceFailure stamp =>
      obtain rfl : Service.payment = svc := Option.some.inj hw
      rcases step_paymentHandle h py r forceFailure stamp with heq | ⟨-, -, heq⟩ |
        ⟨hd, -, -, hok, -, -, heq⟩ <;> rw [heq]
      · exact Or.inl rfl
      · exact Or.inl rfl
      · exact PaymentService.enqueued_handle hok
    | serve req newId stamp =>
      obtain rfl : Service.inventory = svc := Option.some.inj hw
      rcases step_serve h py req newId stamp with heq | ⟨-, -, -, heq⟩ |
        ⟨r, db, -, -, -, ⟨result, hok⟩, -, -, heq⟩ <;> rw [heq]
      · exact Or.inl rfl
      · exact Or.inl rfl
      · obtain ⟨rfl, -⟩ | ⟨-, -, -, href⟩ | ⟨-, -, -, u, -, -, ht⟩ :=
          InventoryService.reserveStock_cases hok
        · exact Or.inl rfl
        · exact enqueued_of_insertOutbox href.outbox
        · exact enqueued_of_insertOutbox ht.outbox
    | inventoryHandle r stamp acked =>
      obtain rfl : Service.inventory = svc := Option.some.inj hw
      rcases step_inventoryHandle h py r stamp acked with heq | ⟨-, heq⟩ |
        ⟨outcome, db, -, hok, -, -, -, heq⟩ <;> rw [heq]
      · exact Or.inl rfl
      · exact Or.inl rfl
      · obtain ⟨-, rfl, -⟩ | ⟨-, -, -, rfl⟩ | ⟨u, row, ob, -, hrel⟩ :=
          InventoryService.handleOrderCancelled_cases hok
        · exact Or.inl rfl
        · exact Or.inl rfl
        · exact enqueued_of_insertOutbox hrel.outbox
    | markPublished svc' id => exact absurd rfl (hl svc' id).1
    | markFailed svc' id => exact absurd rfl (hl svc' id).2
    | _ => simp [Label.writes] at hw
  · refine Or.inl ?_
    cases svc with
    | order => exact congrArg OrderService.Db.outbox ((step_frame py s l).1 hw)
    | payment => exact congrArg PaymentService.Db.outbox ((step_frame py s l).2.1 hw)
    | inventory => exact congrArg InventoryService.Db.outbox ((step_frame py s l).2.2 hw)

/-- The rows that are marked as published stay on their topics, if no other row is marked. -/
theorem Inv.relayed_step (h : s.Inv) (py : PyText) (l : Label) (hr : s.Relayed)
    (hl : s.Acknowledged l) : (System.step py s l).Relayed := by
  by_cases hm : ∀ svc id, l ≠ .markPublished svc id ∧ l ≠ .markFailed svc id
  · intro svc row hrow hst
    refine log_subset_step py s l ?_
    rcases h.enqueued_step py hm svc with heq | ⟨new, hnew, hrows⟩
    · exact hr svc row (heq ▸ hrow) hst
    · rw [hrows, List.mem_append, List.mem_singleton] at hrow
      rcases hrow with hrow | rfl
      · exact hr svc row hrow hst
      · exact absurd (hnew.symm.trans hst) (by decide)
  · have hmark : ∃ svc id, l = .markPublished svc id ∨ l = .markFailed svc id := by
      by_contra hno
      push Not at hno
      exact hm hno
    obtain ⟨svc, id, rfl | rfl⟩ := hmark
    · intro svc' row hrow hst
      simp only [System.step] at hrow ⊢
      rw [outbox_setOutbox] at hrow
      rw [log_setOutbox]
      split_ifs at hrow with hsvc
      · rcases Table.mem_update.mp hrow with ⟨row', hrow', hid, rfl⟩ | ⟨hrow, -⟩
        · exact hl row' (hid ▸ Table.mem_iff_find?.mp hrow')
        · exact hr svc row hrow hst
      · exact hr svc' row hrow hst
    · intro svc' row hrow hst
      simp only [System.step] at hrow ⊢
      rw [outbox_setOutbox] at hrow
      rw [log_setOutbox]
      split_ifs at hrow with hsvc
      · rcases Table.mem_update.mp hrow with ⟨row', hrow', -, rfl⟩ | ⟨hrow, -⟩
        · exact hr svc row' hrow' hst
        · exact hr svc row hrow hst
      · exact hr svc' row hrow hst

theorem relayed_init (stock : Stock) : (init stock).Relayed := by
  intro svc row hrow
  cases svc <;> exact absurd hrow List.not_mem_nil

/-- A run that marks no row whose record is not on its topic leaves none such. -/
theorem Inv.relayed_run (h : s.Inv) (py : PyText) (hr : s.Relayed) {ls : List Label}
    (hl : Along (System.step py) Acknowledged s ls) : (runFrom (System.step py) s ls).Relayed :=
  (throughout_of_along (I := fun s : System => s.Inv ∧ s.Relayed)
    (fun _ l h hl => ⟨h.1.step py l, h.1.relayed_step py l h.2 hl⟩) ⟨h, hr⟩ hl).last.2

/-! ## At rest -/

/-- Every outbox row is published, every message is handled by the services that
subscribe to it, and no handler or request is in progress. -/
structure Quiescent (s : System) : Prop where
  outboxes : ∀ svc, ∀ row ∈ (s.outbox svc).rows, row.status = .published
  handled : ∀ svc, ∀ r ∈ s.log, r.topic ∈ svc.consumes → (svc, r) ∈ s.handled
  idle : s.working = none
  requests : s.requests = []

instance (s : System) : Decidable s.Quiescent :=
  decidable_of_iff ((∀ svc, ∀ row ∈ (s.outbox svc).rows, row.status = .published) ∧
      (∀ svc, ∀ r ∈ s.log, r.topic ∈ svc.consumes → (svc, r) ∈ s.handled) ∧
      s.working = none ∧ s.requests = [])
    ⟨fun ⟨h1, h2, h3, h4⟩ => ⟨h1, h2, h3, h4⟩, fun ⟨h1, h2, h3, h4⟩ => ⟨h1, h2, h3, h4⟩⟩

/-- At rest, every event has been processed by the services that subscribe to it. -/
theorem Quiescent.processed (hq : s.Quiescent) (h : s.Inv) (hr : s.Relayed) {r : Record}
    (hc : s.facts.Committed r) (svc : Service) (ht : r.topic ∈ svc.consumes) :
    s.facts.Processed svc r := by
  obtain ⟨producer, hmem⟩ := hc
  obtain ⟨row, hrow, rfl⟩ := List.mem_map.mp (mem_events_iff.mp hmem)
  have hlog := hr producer row hrow (hq.outboxes producer row hrow)
  exact (h.control.handled svc _ (hq.handled svc _ hlog ht)).processed

/-- At rest, Payment has handled OrderCreated of every order. -/
theorem Quiescent.paid (hq : s.Quiescent) (h : s.Inv) (hr : s.Relayed)
    (ho : (s.facts.saga u).order ≠ none) : (s.facts.saga u).payment ≠ none := by
  have hmem : Topic.orderCreated ∈ topicsOf u (s.facts.events .order) := by
    rw [h.consistent.topics]
    cases hst : (s.facts.saga u).order with
    | none => exact absurd hst ho
    | some st => cases st <;> simp [Saga.topics, hst]
  obtain ⟨r, hr', hu, htopic⟩ := mem_topicsOf.mp hmem
  have hproc := hq.processed h hr ⟨_, hr'⟩ .payment (by rw [htopic]; decide)
  simp only [Facts.Processed, htopic, if_true] at hproc
  obtain ⟨u', hu', hp⟩ := hproc
  rwa [← Option.some.inj (hu'.symm.trans hu)]

/-- At rest, Order has seen every fact. -/
theorem Quiescent.seen (hq : s.Quiescent) (h : s.Inv) (hr : s.Relayed) (t : OrderService.Trigger)
    (ht : (s.facts.saga u).Published t) : (s.facts.saga u).seen t = true := by
  obtain ⟨r, hr', hru, htopic⟩ := h.consistent.published_iff.mp ht
  refine (h.consistent.seen_iff hr' hru htopic).mpr ?_
  exact hq.processed h hr hr' .order (by rw [htopic]; cases t <;> decide)

/-- At rest, the payment of a refused order is refunded. -/
theorem Quiescent.refunded (hq : s.Quiescent) (h : s.Inv) (hr : s.Relayed)
    (hv : (s.facts.saga u).verdict = some .refused) :
    (s.facts.saga u).payment = some .refunded := by
  obtain ⟨r, hr', hru, htopic⟩ :=
    h.consistent.published_iff (t := .inventoryReservationFail).mp hv
  have hproc := hq.processed h hr hr' .payment (by rw [htopic]; decide)
  simp only [Facts.Processed, htopic, OrderService.Trigger.topic, reduceCtorEq, if_false] at hproc
  exact h.consistent.refunds r hr' hproc u hru

theorem Quiescent.atRest (hq : s.Quiescent) (h : s.Inv) (hr : s.Relayed) (hcalled : s.Called)
    (ho : (s.facts.saga u).order ≠ none) : (s.facts.saga u).AtRest := by
  refine ⟨hq.paid h hr ho, fun hp hv => ?_, hq.refunded h hr, hq.seen h hr⟩
  obtain ⟨req, hreq, -⟩ := hcalled u (Or.inl hp) hv
  simp [pending, hq.idle, hq.requests] at hreq

/-- The units of a SKU in CONFIRMED orders. -/
def confirmedSum (s : System) (sku : String) : ℤ :=
  s.order.orders.sum fun o => if o.sku = sku ∧ o.status = .confirmed then o.quantity.val else 0

/-- Every order is over, and what the three services hold is what the CONFIRMED orders
call for. -/
structure NoResidue (stock : Stock) (s : System) : Prop where
  terminal : ∀ o ∈ s.order.orders.rows, o.status.isTerminal = true
  confirmed : ∀ o ∈ s.order.orders.rows, o.status = .confirmed →
    s.paymentStatus o.id = some .processed ∧
      ∃ row, s.reservationsOf o.id = [row] ∧ row.status = .reserved
  cancelled : ∀ o ∈ s.order.orders.rows, o.status = .cancelled →
    (s.paymentStatus o.id = some .failed ∨ s.paymentStatus o.id = some .refunded) ∧
      ∀ row ∈ s.reservationsOf o.id, row.status ≠ .reserved
  reserved : ∀ sku, InventoryService.reserved s.inventory.stock sku = s.confirmedSum sku
  available : ∀ sku, InventoryService.available s.inventory.stock sku =
      InventoryService.available stock sku - s.confirmedSum sku ∧
    0 ≤ InventoryService.available s.inventory.stock sku

/-- Where every saga is at rest, the RESERVED rows are those of the CONFIRMED orders. -/
theorem Inv.reservedSum_eq (h : s.Inv)
    (hrest : ∀ u, (s.facts.saga u).order ≠ none → (s.facts.saga u).AtRest) (sku : String) :
    InventoryService.reservedSum s.inventory.reservations sku = s.confirmedSum sku := by
  have hc := h.consistent
  refine Table.sum_eq_of_find? _ _ _ _ fun u => ?_
  by_cases hv : (s.facts.saga u).verdict = some .reserved
  · obtain ⟨o, row, ho, hrow, hsku, hq, hst⟩ := hc.reserved u hv
    have hso : (s.facts.saga u).order = some o.status := by
      simp [Facts.saga, ho]
    rcases (hc.inv u).rest (hrest u (by simp [hso])) with ⟨hcon, -, -⟩ | ⟨-, -, hne⟩
    · have hstatus : o.status = .confirmed := Option.some.inj (hso.symm.trans hcon)
      rw [show s.inventory.reservations.find? u = _ from hrow,
        show s.order.orders.find? u = _ from ho]
      simp [hsku, hq, hst, hstatus]
    · exact absurd hv hne
  · rw [show s.inventory.reservations.find? u = none from hc.unreserved u hv]
    cases ho : s.order.orders.find? u with
    | none => rfl
    | some o =>
      have hne : o.status ≠ .confirmed := by
        intro hst
        refine hv ((hc.inv u).confirmed ?_).2
        simp [Facts.saga, facts, factsOf, ho, hst]
      simp [hne]

theorem Quiescent.noResidue (hq : s.Quiescent) (h : s.Inv) (hs : Stocked stock s) (hr : s.Relayed)
    (hcalled : s.Called) (h₀ : ∀ sku, InventoryService.reserved stock sku = 0)
    (ha : ∀ sku, 0 ≤ InventoryService.available stock sku) : NoResidue stock s := by
  have hc := h.consistent
  have hrest : ∀ u, (s.facts.saga u).order ≠ none → (s.facts.saga u).AtRest := fun u ho =>
    hq.atRest h hr hcalled ho
  have hsum := h.reservedSum_eq hrest
  have hsaga : ∀ o ∈ s.order.orders.rows, (s.facts.saga o.id).order = some o.status := by
    intro o ho
    simp [Facts.saga, facts, factsOf, Table.mem_iff_find?.mp ho]
  have hover : ∀ o ∈ s.order.orders.rows, _ := fun o ho =>
    (hc.inv o.id).rest (hrest o.id (by simp [hsaga o ho]))
  refine ⟨fun o ho => ?_, fun o ho hst => ⟨?_, ?_⟩, fun o ho hst => ⟨?_, fun row hrow => ?_⟩,
    fun sku => ?_, fun sku => ?_⟩
  · rcases hover o ho with ⟨hcon, -, -⟩ | ⟨hcan, -, -⟩
    · rw [Option.some.inj ((hsaga o ho).symm.trans hcon)]
      rfl
    · rw [Option.some.inj ((hsaga o ho).symm.trans hcan)]
      rfl
  · exact ((hc.inv o.id).confirmed ((hsaga o ho).trans (congrArg some hst))).1
  · obtain ⟨row, hrow, hrst, -, -⟩ := h.reservation_of_confirmed (Table.mem_iff_find?.mp ho) hst
    exact ⟨row, hrow, hrst⟩
  · rcases hover o ho with ⟨hcon, -, -⟩ | ⟨-, hp, -⟩
    · rw [hsaga o ho, hst] at hcon
      simp at hcon
    · exact hp
  · have hv := (hc.inv o.id).cancelled ((hsaga o ho).trans (congrArg some hst))
    have hnone := hc.unreserved o.id hv
    obtain ⟨hmem, hid⟩ := List.mem_filter.mp hrow
    exact absurd (by simpa using hid) (Table.find?_eq_none.mp hnone row hmem)
  · rw [hs.accounted sku, hsum sku]
  · have htotal := hs.sound.total sku
    have hlower := hs.sound.lower sku
    have hacc := hs.accounted sku
    have hinit := ha sku
    rw [h₀ sku, hacc, hsum sku] at htotal
    constructor <;> omega

/-- At rest, after a run in which no call of ReserveStock was lost and with every published row
on its topic, there is no residue. -/
theorem no_residue_at_rest (py : PyText) (stock : Stock)
    (hstock : ∀ row ∈ stock.rows, row.reserved.val = 0 ∧ 0 ≤ row.available.val) (ls : List Label)
    (hl : Along (step py) Lossless (init stock) ls)
    (hr : (runFrom (step py) (init stock) ls).Relayed)
    (hq : (runFrom (step py) (init stock) ls).Quiescent) :
    NoResidue stock (runFrom (step py) (init stock) ls) := by
  obtain ⟨h₀, ha⟩ := InventoryService.initial_stock hstock
  exact hq.noResidue (inv_run py stock ls) (stocked_run h₀ py ls) hr (called_run h₀ py hl) h₀ ha

/-- An order of eleven units is refused, refunded and cancelled. -/
def toCancelled : List Label :=
  toVerdict (.lit 11) ++
    ([.orderHandle captured (.ofKey "k4" 4) true,
      .orderHandle (refused (.lit 11)) (.ofKey "k4" 4) true,
      .paymentHandle (refused (.lit 11)) false (.ofKey "k4" 4),
      .commitOffset,
      .publish .payment 4,
      .orderHandle (PaymentService.refundedEvent (.ofKey "k4" 4) InventoryService.sagaA 0).record
        (.ofKey "k5" 5) true,
      .publish .order 5,
      .inventoryHandle (OrderService.orderCancelledEvent (.ofKey "k5" 5)
        InventoryService.sagaA).record (.ofKey "k6" 6) true,
      .markPublished .order 1,
      .markPublished .payment 2,
      .markPublished .inventory 3,
      .markPublished .payment 4,
      .markPublished .order 5] : List Label)

theorem no_residue_at_rest_cancelled :
    (runFrom (step noText) (init InventoryService.tenUnits) toCancelled).orderStatus 10 =
        some .cancelled ∧
      NoResidue InventoryService.tenUnits
        (runFrom (step noText) (init InventoryService.tenUnits) toCancelled) := by
  have hrun : (runFrom (step noText) (init InventoryService.tenUnits) toCancelled).orderStatus 10 =
      some .cancelled ∧ Along (step noText) Lossless (init InventoryService.tenUnits) toCancelled ∧
      (runFrom (step noText) (init InventoryService.tenUnits) toCancelled).Relayed ∧
      (runFrom (step noText) (init InventoryService.tenUnits) toCancelled).Quiescent := by
    decide +kernel
  obtain ⟨hst, hlossless, hrelayed, hquiescent⟩ := hrun
  exact ⟨hst, no_residue_at_rest noText _ (by decide) toCancelled hlossless hrelayed hquiescent⟩

/-! ## Verdicts -/

/-- Inventory has committed an outcome for the saga. -/
def HasVerdict (s : System) (u : Uuid) : Prop :=
  ∃ e ∈ s.inventory.events, e.saga = some u ∧
    (e.topic = .inventoryReserved ∨ e.topic = .inventoryReservationFailed)

instance (s : System) (u : Uuid) : Decidable (s.HasVerdict u) :=
  inferInstanceAs (Decidable (∃ e ∈ _, _))

theorem Inv.hasVerdict_iff (h : s.Inv) : s.HasVerdict u ↔ (s.facts.saga u).verdict ≠ none := by
  have hc := h.consistent
  constructor
  · rintro ⟨e, he, hu, htopic | htopic⟩ hv
    · have hpub := hc.published_iff (t := .inventoryReserved).mpr ⟨e, ⟨.inventory, he⟩, hu, htopic⟩
      exact absurd (hpub.symm.trans hv) (by simp)
    · have hpub := hc.published_iff (t := .inventoryReservationFail).mpr
        ⟨e, ⟨.inventory, he⟩, hu, htopic⟩
      exact absurd (hpub.symm.trans hv) (by simp)
  · intro hv
    cases hverdict : (s.facts.saga u).verdict with
    | none => exact absurd hverdict hv
    | some v =>
      cases v with
      | reserved =>
        obtain ⟨e, he, hu, htopic⟩ := hc.published_iff (t := .inventoryReserved).mp hverdict
        have hmem := hc.mem_events he
        rw [htopic] at hmem
        exact ⟨e, hmem, hu, Or.inl htopic⟩
      | refused =>
        obtain ⟨e, he, hu, htopic⟩ := hc.published_iff (t := .inventoryReservationFail).mp hverdict
        have hmem := hc.mem_events he
        rw [htopic] at hmem
        exact ⟨e, hmem, hu, Or.inr htopic⟩

/-- The message whose call Payment has made, and not had an answer to. -/
def inCall (s : System) : Option Record :=
  match s.working with
  | some ⟨r, .calling _⟩ => some r
  | _ => none

/-- Payment's call of ReserveStock for the saga `u` is cut off before Inventory has
committed an outcome : Payment crashes before the call has returned, or the call ends in a
transport error. -/
def CutsOff (s : System) (u : Uuid) : Label → Prop
  | .crash => (s.toCall.bind Record.saga = some u ∨ s.inCall.bind Record.saga = some u) ∧
      ¬s.HasVerdict u
  | .fail => s.inCall.bind Record.saga = some u ∧ ¬s.HasVerdict u
  | _ => False

instance (s : System) (u : Uuid) : (l : Label) → Decidable (s.CutsOff u l)
  | .crash => inferInstanceAs (Decidable (_ ∧ _))
  | .fail => inferInstanceAs (Decidable (_ ∧ _))
  | .createOrder .. | .publish .. | .markPublished .. | .markFailed .. | .orderHandle ..
  | .paymentHandle .. | .call | .serve .. | .drop _ | .reply | .commitOffset
  | .inventoryHandle .. => inferInstanceAs (Decidable False)

/-- Payment is about to make its call for the saga, or waits for the answer. -/
def AtCall (s : System) (u : Uuid) : Prop :=
  ∃ r req, r.saga = some u ∧
    (s.working = some ⟨r, .reserve req⟩ ∨ s.working = some ⟨r, .calling req⟩)

theorem AtCall.saga (h : s.AtCall u) {r : Record} {stage : Stage}
    (hw : s.working = some ⟨r, stage⟩) : r.saga = some u := by
  obtain ⟨r', req, hu, hw'⟩ := h
  simp only [hw, Option.some.injEq, Handler.mk.injEq] at hw'
  obtain ⟨rfl, -⟩ | ⟨rfl, -⟩ := hw'
  · exact hu
  · exact hu

/-- Payment is handling the message of a saga that is captured and has no verdict. -/
def Waiting (s : System) (u : Uuid) : Prop :=
  (s.facts.saga u).Published .paymentProcessed → (s.facts.saga u).verdict = none → s.AtCall u

/-- Payment stays at its call until there is a verdict, unless the call is cut off. -/
theorem Inv.atCall_step (h : s.Inv) (py : PyText) (hl : ¬s.CutsOff u l)
    (hpay : ∀ r forceFailure stamp, l ≠ .paymentHandle r forceFailure stamp)
    (hv : (s.facts.saga u).verdict = none) (hat : s.AtCall u) :
    (System.step py s l).AtCall u := by
  have hno : ¬s.HasVerdict u := fun hv' => h.hasVerdict_iff.mp hv' hv
  by_cases hcalls : l.calls = false
  · rw [AtCall, (step_calls py s hcalls).1]
    exact hat
  cases l with
  | paymentHandle r forceFailure stamp => exact absurd rfl (hpay r forceFailure stamp)
  | call =>
    rcases step_call py s with heq | ⟨r, req, hw, heq⟩ <;> rw [heq]
    · exact hat
    · exact ⟨r, req, hat.saga hw, Or.inr rfl⟩
  | serve req newId stamp =>
    rcases step_serve h py req newId stamp with heq | ⟨-, -, -, heq⟩ |
      ⟨r, db, -, -, -, -, -, -, heq⟩ <;> rw [heq] <;> exact hat
  | drop req => exact hat
  | reply =>
    rcases step_reply py s with heq | ⟨r, req, hw, hreq, heq⟩
    · rwa [heq]
    · -- the call is answered, so that its saga has a verdict
      obtain ⟨u', hu', hv'⟩ := h.control.replies req hreq
      rw [(h.control.stage r req (Or.inr hw)).1.saga_eq, hat.saga hw] at hu'
      exact absurd (Option.some.inj hu' ▸ hv) hv'
  | fail =>
    rcases step_fail py s with heq | ⟨r, req, hw, heq⟩
    · rwa [heq]
    · exact absurd ⟨by simp [inCall, hw, hat.saga hw], hno⟩ hl
  | commitOffset =>
    rcases step_commitOffset py s with heq | ⟨r, hw, heq⟩
    · rwa [heq]
    · obtain ⟨r', req, -, hw' | hw'⟩ := hat <;> simp [hw] at hw'
  | crash =>
    refine absurd ⟨?_, hno⟩ hl
    obtain ⟨r, req, hu, hw | hw⟩ := hat
    · exact Or.inl (by simp [toCall, hw, hu])
    · exact Or.inr (by simp [inCall, hw, hu])
  | _ => exact absurd rfl hcalls

/-- Payment goes on to its call when it captures a payment. -/
theorem Inv.waiting_paymentHandle (h : s.Inv) (py : PyText) (r : Record) (forceFailure : Bool)
    (stamp : Stamp) (hv : (s.facts.saga u).verdict = none) (hwait : s.Waiting u)
    (hpub : ((System.step py s (.paymentHandle r forceFailure stamp)).facts.saga u).Published
      .paymentProcessed) :
    (System.step py s (.paymentHandle r forceFailure stamp)).AtCall u := by
  -- if Payment was idle, no captured payment was without a verdict
  have hidle : s.working = none → ¬(s.facts.saga u).Published .paymentProcessed := by
    intro hw hpub'
    obtain ⟨r', req', -, hw' | hw'⟩ := hwait hpub' hv
    · simp [hw] at hw'
    · simp [hw] at hw'
  rcases step_paymentHandle h py r forceFailure stamp with heq | ⟨hw, -, heq⟩ |
    ⟨hd, hw, -, -, -, hnext, heq⟩ <;> rw [heq] at hpub ⊢
  · exact hwait hpub hv
  · exact absurd hpub (hidle hw)
  · cases hn : hd.next with
    | done =>
      rw [hn] at hnext
      exact absurd (hnext u hpub) (hidle hw)
    | reserve req =>
      rw [hn] at hnext
      rcases hnext.2 u hpub with hpub' | hu
      · exact absurd hpub' (hidle hw)
      · exact ⟨r, req, hu, Or.inl rfl⟩
    | raise =>
      rw [hn] at hnext
      exact hnext.elim

theorem Inv.waiting_step (h : s.Inv) (py : PyText) (hl : ¬s.CutsOff u l) (hwait : s.Waiting u) :
    (System.step py s l).Waiting u := by
  intro hpub hv
  have hv₀ : (s.facts.saga u).verdict = none := by
    by_contra hv'
    exact (h.step_extends py l).verdict hv' hv
  by_cases hpay : ∀ r forceFailure stamp, l ≠ .paymentHandle r forceFailure stamp
  · exact h.atCall_step py hl hpay hv₀ (hwait (published_of_step py s hpay hpub) hv₀)
  · push Not at hpay
    obtain ⟨r, forceFailure, stamp, rfl⟩ := hpay
    exact h.waiting_paymentHandle py r forceFailure stamp hv₀ hwait hpub

/-- A captured payment whose OrderCreated Payment has handled has a verdict, unless its
call of ReserveStock was cut off. -/
theorem decided_of_handled (py : PyText) (stock : Stock) (u : Uuid) (ls : List Label)
    (hl : Along (step py) (fun s l => ¬s.CutsOff u l) (init stock) ls) {r : Record}
    (hr : (.payment, r) ∈ (runFrom (step py) (init stock) ls).handled)
    (htopic : r.topic = .orderCreated) (hu : r.saga = some u)
    (hp : (runFrom (step py) (init stock) ls).paymentStatus u = some .processed) :
    (runFrom (step py) (init stock) ls).HasVerdict u := by
  have hrun := throughout_of_along (I := fun s : System => s.Inv ∧ s.Waiting u)
    (fun s l ⟨h, hw⟩ hl => ⟨h.step py l, h.waiting_step py hl hw⟩) ?_ hl
  · obtain ⟨h, hwait⟩ := hrun.last
    rw [h.hasVerdict_iff]
    intro hv
    obtain ⟨r', req, hu', hw⟩ := hwait (Or.inl hp) hv
    obtain ⟨hc, hnot⟩ := h.control.stage r' req hw
    have hcommitted := h.control.log r (h.control.handled _ _ hr).log
    have hsame : r' = r := h.consistent.unique ⟨_, hc.committed⟩ hcommitted hu' hu
      (hc.topic.trans htopic.symm)
    exact hnot (hsame ▸ hr)
  · refine ⟨inv_init stock, ?_⟩
    rintro (hp | hp) <;> exact absurd hp (by simp [Facts.saga, facts, factsOf, init,
      PaymentService.Db.empty])

theorem decided_of_handled_eleven :
    (runFrom (step noText) (init InventoryService.tenUnits) (toVerdict (.lit 11))).HasVerdict
      10 := by
  have hrun : Along (step noText) (fun s l => ¬s.CutsOff 10 l) (init InventoryService.tenUnits)
        (toVerdict (.lit 11)) ∧
      (.payment, (OrderService.orderCreatedEvent (.ofKey "k1" 1) InventoryService.sagaA "customer"
        "SKU-1" (.lit 11) (.lit 10)).record) ∈
        (runFrom (step noText) (init InventoryService.tenUnits) (toVerdict (.lit 11))).handled ∧
      (runFrom (step noText) (init InventoryService.tenUnits)
        (toVerdict (.lit 11))).paymentStatus 10 = some .processed := by
    decide +kernel
  exact decided_of_handled noText _ 10 _ hrun.1 hrun.2.1 rfl (by decide) hrun.2.2

/-- The request of ReserveStock is lost, and the call ends in a transport error. -/
def dropped : List Label :=
  [.createOrder ⟨"customer", "SKU-1", .lit 3, .lit 10⟩ InventoryService.sagaA (.ofKey "k1" 1),
    .publish .order 1,
    .paymentHandle (OrderService.orderCreatedEvent (.ofKey "k1" 1) InventoryService.sagaA
      "customer" "SKU-1" (.lit 3) (.lit 10)).record false (.ofKey "k2" 2),
    .call,
    .drop ⟨InventoryService.sagaA, "k1", "SKU-1", .lit 3⟩,
    .fail,
    .commitOffset]

/-- OrderCreated is handled, the payment is captured, and Inventory has no outcome. -/
theorem not_decided_dropped :
    (.payment, (OrderService.orderCreatedEvent (.ofKey "k1" 1) InventoryService.sagaA "customer"
        "SKU-1" (.lit 3) (.lit 10)).record) ∈
        (runFrom (step noText) (init InventoryService.tenUnits) dropped).handled ∧
      (runFrom (step noText) (init InventoryService.tenUnits) dropped).paymentStatus 10 =
        some .processed ∧
      ¬(runFrom (step noText) (init InventoryService.tenUnits) dropped).HasVerdict 10 := by
  decide +kernel

end Choreography.System
