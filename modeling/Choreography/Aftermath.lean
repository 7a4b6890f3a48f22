import Choreography.Completion

/-!
# What runs leave behind

Facts about every run of the composed system, lost calls included.

A system at rest has orders that are over and orders that are stuck : PAYMENT_OK, with
the payment captured and no verdict of Inventory. A stuck order is stuck for ever, since
Payment calls ReserveStock only when it captures the payment (`over_or_stuck`).

The events of a saga follow one of three histories, whatever the order and the number of
deliveries (`follows_history`). In none of them is stock released : the choreography
cancels an order only if Inventory reserved nothing for it, so that Inventory's handling of
`order.cancelled` is always without effect (`never_released`), and what is confirmed never
exceeds the stock (`never_oversold`).

The two inputs that force a failure do so in every run (`forced_failures`).
-/

namespace Choreography

/-! ## Stuck sagas -/

namespace Saga

variable {s s' : Saga}

/-- The payment is captured, Inventory has no verdict, and Order has seen the capture. -/
structure Stuck (s : Saga) : Prop where
  order : s.order = some .paymentOk
  payment : s.payment = some .processed
  verdict : s.verdict = none
  seen : s.seen .paymentProcessed = true

/-- A saga whose facts Order has all seen is over, or stuck. -/
theorem Inv.stuck (hs : Inv s) (hp : s.payment = some .processed) (hv : s.verdict = none)
    (hseen : ∀ t, s.Published t → s.seen t = true) : s.Stuck := by
  have hcaptured : s.seen .paymentProcessed = true := hseen .paymentProcessed (Or.inl hp)
  refine ⟨?_, hp, hv, hcaptured⟩
  have hstatus := hs.status
  have hno : ∀ t, t ≠ .paymentProcessed → s.seen t ≠ true := by
    intro t ht hseen
    have hpub := hs.seen t hseen
    cases t <;> simp_all [Published]
  have hfailed := hno .paymentFailed (by decide)
  have hreserved := hno .inventoryReserved (by decide)
  have hrefused := hno .inventoryReservationFail (by decide)
  cases ho : s.order with
  | none => exact absurd ho (hs.created (by simp [hp]))
  | some cur => cases cur <;> simp_all [StatusInv]

/-- Only a verdict moves a stuck saga. -/
theorem Stuck.step (h : s.Stuck) (hstep : Step s s') (hv : s'.verdict = none) : s' = s := by
  cases hstep with
  | create ho => simp [h.order] at ho
  | charge ho hp hst => simp [h.payment] at hp
  | decide v hp hv' => simp at hv
  | refund hp hv' => simp [h.verdict] at hv'
  | deliver t cur ho hpub hnew hok =>
    have hseen := h.seen
    cases t <;> simp_all [Published, h.payment, h.verdict]

/-! ## Histories -/

/-- How a saga can go. -/
inductive History
  | confirmed
  | declined
  | compensated

/-- The topics of the events that a service commits for a saga that goes this way. -/
def History.topics : History → Service → List Topic
  | .confirmed, .order => [.orderCreated]
  | .confirmed, .payment => [.paymentProcessed]
  | .confirmed, .inventory => [.inventoryReserved]
  | .declined, .order => [.orderCreated, .orderCancelled]
  | .declined, .payment => [.paymentFailed]
  | .declined, .inventory => []
  | .compensated, .order => [.orderCreated, .orderCancelled]
  | .compensated, .payment => [.paymentProcessed, .paymentRefunded]
  | .compensated, .inventory => [.inventoryReservationFailed]

/-- The services commit the events of the saga in the order of the history. -/
def Follows (s : Saga) (h : History) : Prop := ∀ svc, List.IsPrefix (s.topics svc) (h.topics svc)

/-- A saga that is cancelled has a declined payment or a refusal. -/
theorem Inv.not_cancelled (hs : Inv s) (hp : s.payment ≠ some .failed)
    (hv : s.verdict ≠ some .refused) : s.order ≠ some .cancelled := by
  intro ho
  have hstatus := hs.status
  rw [ho] at hstatus
  rcases hstatus with hseen | hseen
  · exact hp (hs.seen _ hseen)
  · exact hv (hs.seen _ hseen)

theorem topics_order_of_not_cancelled (h : s.order ≠ some .cancelled) :
    List.IsPrefix (s.topics .order) [.orderCreated] := by
  cases ho : s.order with
  | none => simp [topics, ho]
  | some cur => cases cur <;> simp_all [topics]

theorem topics_order_prefix (s : Saga) :
    List.IsPrefix (s.topics .order) [.orderCreated, .orderCancelled] := by
  cases ho : s.order with
  | none => simp [topics, ho]
  | some cur => cases cur <;> simp [topics, ho]

theorem Inv.verdict_of_not_captured (hs : Inv s) (h : ¬s.Published .paymentProcessed) :
    s.verdict = none := by
  by_contra hv
  exact h (hs.captured hv)

/-- The statuses tell the history, as far as it has come. -/
theorem Inv.exists_follows (hs : Inv s) : ∃ h, s.Follows h := by
  cases hp : s.payment with
  | none =>
    have hv := hs.verdict_of_not_captured (by simp [Published, hp])
    refine ⟨.confirmed, fun svc => ?_⟩
    cases svc with
    | order =>
      exact topics_order_of_not_cancelled (hs.not_cancelled (by simp [hp]) (by simp [hv]))
    | payment => simp [topics, hp]
    | inventory => simp [topics, hv]
  | some p =>
    cases p with
    | failed =>
      have hv := hs.verdict_of_not_captured (by simp [Published, hp])
      refine ⟨.declined, fun svc => ?_⟩
      cases svc with
      | order => exact s.topics_order_prefix
      | payment => simp [topics, hp, History.topics]
      | inventory => simp [topics, hv]
    | refunded =>
      have hv := hs.refunded hp
      refine ⟨.compensated, fun svc => ?_⟩
      cases svc with
      | order => exact s.topics_order_prefix
      | payment => simp [topics, hp, History.topics]
      | inventory => simp [topics, hv, History.topics]
    | processed =>
      by_cases hv : s.verdict = some .refused
      · refine ⟨.compensated, fun svc => ?_⟩
        cases svc with
        | order => exact s.topics_order_prefix
        | payment => simp [topics, hp, History.topics]
        | inventory => simp [topics, hv, History.topics]
      · refine ⟨.confirmed, fun svc => ?_⟩
        cases svc with
        | order => exact topics_order_of_not_cancelled (hs.not_cancelled (by simp [hp]) hv)
        | payment => simp [topics, hp, History.topics]
        | inventory =>
          cases hverdict : s.verdict with
          | none => simp [topics, hverdict]
          | some v => cases v <;> simp_all [topics, History.topics]

/-- A saga that is over has followed its history to the end. -/
theorem Follows.eq_of_over {h : History} (hf : s.Follows h) (hs : Inv s)
    (hover : (s.order = some .confirmed ∧ s.verdict = some .reserved) ∨
      (s.order = some .cancelled ∧ (s.payment = some .failed ∨ s.payment = some .refunded)))
    (svc : Service) : s.topics svc = h.topics svc := by
  have hpayment := hf .payment
  have hinventory := hf .inventory
  have horder := hf .order
  rcases hover with ⟨ho, hv⟩ | ⟨ho, hp | hp⟩
  · have hp := (hs.confirmed ho).1
    cases h <;> cases svc <;> simp_all [topics, History.topics]
  · have hv := hs.verdict_of_not_captured (by simp [Published, hp])
    cases h <;> cases svc <;> simp_all [topics, History.topics]
  · have hv := hs.refunded hp
    cases h <;> cases svc <;> simp_all [topics, History.topics]

end Saga

namespace System

open PaymentService (PyText noText)

variable {s : System} {u : Uuid} {l : Label} {stock : InventoryService.Stock}

/-- A verdict is the answer to a request. -/
theorem Inv.served_of_hasVerdict (h : s.Inv) (py : PyText) (hno : ¬s.HasVerdict u)
    (hv : (System.step py s l).HasVerdict u) :
    ∃ req ∈ s.requests, uuidIn req.sagaId = some u := by
  obtain ⟨e, he, hu, htopic⟩ := hv
  by_cases hw : l.commits = some .inventory
  · cases l with
    | serve req newId stamp =>
      rcases step_serve h py req newId stamp with heq | ⟨-, -, -, heq⟩ |
        ⟨r, db, hreq, -, -, ⟨result, hok⟩, -, -, heq⟩ <;> rw [heq] at he
      · exact absurd ⟨e, he, hu, htopic⟩ hno
      · exact absurd ⟨e, he, hu, htopic⟩ hno
      · -- the new event is of the saga of the request
        have hnew : ∀ {ob : OutboxInsert},
            insertOutbox stamp s.inventory.outbox ob = .ok db.outbox →
            ob.record.saga = uuidIn req.sagaId →
            ∃ req ∈ s.requests, uuidIn req.sagaId = some u := by
          intro ob hb hsaga
          rw [InventoryService.Db.events, eventsOf_insertOutbox hb, List.mem_append,
            List.mem_singleton] at he
          rcases he with he | rfl
          · exact absurd ⟨e, he, hu, htopic⟩ hno
          · exact ⟨req, hreq, hsaga.symm.trans hu⟩
        obtain ⟨rfl, -⟩ | ⟨-, -, -, href⟩ | ⟨-, -, -, u', -, -, ht⟩ :=
          InventoryService.reserveStock_cases hok
        · exact absurd ⟨e, he, hu, htopic⟩ hno
        · exact hnew href.outbox rfl
        · exact hnew ht.outbox rfl
    | inventoryHandle r stamp acked =>
      rcases step_inventoryHandle h py r stamp acked with heq | ⟨-, heq⟩ |
        ⟨outcome, db, -, -, hproc, -, -, heq⟩ <;> rw [heq] at he
      · exact absurd ⟨e, he, hu, htopic⟩ hno
      · exact absurd ⟨e, he, hu, htopic⟩ hno
      · have hmem : e ∈ (factsOf s.order s.payment db).events .inventory := he
        rw [hproc.step.events_of_inventory] at hmem
        exact absurd ⟨e, hmem, hu, htopic⟩ hno
    | _ => simp [Label.commits] at hw
  · rw [(inventory_frame py s hw).2.2] at he
    exact absurd ⟨e, he, hu, htopic⟩ hno

/-- Payment calls ReserveStock only for a payment that it captures. -/
theorem Inv.pending_of_step (h : s.Inv) (py : PyText) (l : Label) {req : ReserveStockRequest}
    (hreq : req ∈ (System.step py s l).pending) (hu : uuidIn req.sagaId = some u)
    (hp : (s.facts.saga u).payment ≠ none) : req ∈ s.pending := by
  by_cases hcalls : l.calls = false
  · obtain ⟨hw, hrequests⟩ := step_calls py s hcalls
    simpa only [pending, hw, hrequests] using hreq
  rw [mem_pending] at hreq ⊢
  cases l with
  | paymentHandle r forceFailure stamp =>
    rcases step_paymentHandle h py r forceFailure stamp with heq | ⟨-, -, heq⟩ |
      ⟨hd, -, -, -, hproc, hnext, heq⟩ <;> rw [heq] at hreq
    · exact hreq
    · exact Or.inr (hreq.resolve_left (by simp))
    · rcases hreq with ⟨r', hw⟩ | hreq
      · cases hn : hd.next with
        | done => simp [hn, goOn] at hw
        | raise => simp [hn, goOn] at hw
        | reserve req' =>
          rw [hn] at hnext
          simp only [hn, goOn, Option.some.injEq, Handler.mk.injEq, Stage.reserve.injEq] at hw
          obtain ⟨-, rfl⟩ := hw
          refine absurd ?_ hproc.new
          have hsaga : r.saga = some u := hnext.1.saga_eq.symm.trans hu
          simp only [Facts.Processed, hnext.1.topic, if_true]
          exact ⟨u, hsaga, hp⟩
      · exact Or.inr hreq
  | call =>
    rcases step_call py s with heq | ⟨r', req', hw, heq⟩ <;> rw [heq] at hreq
    · exact hreq
    · rcases hreq with ⟨r, hr⟩ | hreq
      · simp at hr
      · rcases List.mem_cons.mp hreq with rfl | hreq
        · exact Or.inl ⟨r', hw⟩
        · exact Or.inr hreq
  | serve req' newId stamp =>
    rcases step_serve h py req' newId stamp with heq | ⟨-, -, -, heq⟩ |
      ⟨r', db, -, -, -, -, -, -, heq⟩ <;> rw [heq] at hreq
    · exact hreq
    · exact hreq.imp_right List.mem_of_mem_erase
    · exact hreq.imp_right List.mem_of_mem_erase
  | drop req' => exact hreq.imp_right List.mem_of_mem_erase
  | reply =>
    rcases step_reply py s with heq | ⟨r', req', -, -, heq⟩ <;> rw [heq] at hreq
    · exact hreq
    · exact Or.inr (hreq.resolve_left (by simp))
  | fail =>
    rcases step_fail py s with heq | ⟨r', req', -, heq⟩ <;> rw [heq] at hreq
    · exact hreq
    · exact Or.inr (hreq.resolve_left (by simp))
  | commitOffset =>
    rcases step_commitOffset py s with heq | ⟨r', -, heq⟩ <;> rw [heq] at hreq
    · exact hreq
    · exact Or.inr (hreq.resolve_left (by simp))
  | crash =>
    have hcrash : System.step py s .crash = { s with working := none } := rfl
    rw [hcrash] at hreq
    exact Or.inr (hreq.resolve_left (by simp))
  | _ => exact absurd rfl hcalls

/-- A stuck saga that has no call of ReserveStock pending stays as it is. -/
theorem Inv.stuck_run (h : s.Inv) (py : PyText) (hstuck : (s.facts.saga u).Stuck)
    (hno : ∀ req ∈ s.pending, uuidIn req.sagaId ≠ some u) (ls : List Label) :
    (runFrom (System.step py) s ls).facts.saga u = s.facts.saga u := by
  refine (invariant_runFrom (I := fun t : System => t.Inv ∧ t.facts.saga u = s.facts.saga u ∧
    ∀ req ∈ t.pending, uuidIn req.sagaId ≠ some u) ?_ ls ⟨h, rfl, hno⟩).2.1
  rintro t l ⟨ht, heq, hnone⟩
  have hst : (t.facts.saga u).Stuck := heq ▸ hstuck
  have hv : ¬t.HasVerdict u := fun hv => ht.hasVerdict_iff.mp hv hst.verdict
  have hv' : ((System.step py t l).facts.saga u).verdict = none := by
    by_contra hne
    obtain ⟨req, hreq, hu⟩ :=
      ht.served_of_hasVerdict py hv ((ht.step py l).hasVerdict_iff.mpr hne)
    exact hnone req (mem_pending.mpr (Or.inr hreq)) hu
  refine ⟨ht.step py l, ?_, fun req hreq hu => ?_⟩
  · rcases ht.step_saga py l u with hsame | hstep
    · exact hsame.trans heq
    · exact (hst.step hstep hv').trans heq
  · exact hnone req (ht.pending_of_step py l hreq hu (by simp [hst.payment])) hu

/-- The order is PAYMENT_OK with its payment captured, and Inventory has nothing for it. -/
structure StuckOrder (s : System) (u : Uuid) : Prop where
  order : s.orderStatus u = some .paymentOk
  payment : s.paymentStatus u = some .processed
  verdict : ¬s.HasVerdict u
  reservations : s.reservationsOf u = []

theorem Inv.reservationsOf_eq_nil (h : s.Inv) (hv : (s.facts.saga u).verdict ≠ some .reserved) :
    s.reservationsOf u = [] := by
  have hnone := h.consistent.unreserved u hv
  refine List.filter_eq_nil_iff.mpr fun row hrow => ?_
  simpa using Table.find?_eq_none.mp hnone row hrow

theorem Inv.stuckOrder (h : s.Inv) (hs : (s.facts.saga u).Stuck) : s.StuckOrder u where
  order := hs.order
  payment := hs.payment
  verdict hv := h.hasVerdict_iff.mp hv hs.verdict
  reservations := h.reservationsOf_eq_nil (by simp [hs.verdict])

/-- The order is CONFIRMED with its payment captured and its stock reserved, or CANCELLED with
its payment declined or refunded and nothing reserved. -/
def Over (s : System) (u : Uuid) : Prop :=
  (s.orderStatus u = some .confirmed ∧ s.paymentStatus u = some .processed ∧
      ∃ row, s.reservationsOf u = [row] ∧ row.status = .reserved) ∨
    (s.orderStatus u = some .cancelled ∧
      (s.paymentStatus u = some .failed ∨ s.paymentStatus u = some .refunded) ∧
      s.reservationsOf u = [])

theorem Quiescent.over_or_stuckSaga (hq : s.Quiescent) (h : s.Inv) (hr : s.Relayed)
    (hu : u ∈ s.ids) : s.Over u ∨ (s.facts.saga u).Stuck := by
  have hinv := h.consistent.inv u
  by_cases hcall : (s.facts.saga u).payment = some .processed ∧ (s.facts.saga u).verdict = none
  · exact Or.inr (hinv.stuck hcall.1 hcall.2 (hq.seen h hr))
  · have hrest : (s.facts.saga u).AtRest :=
      ⟨hq.paid h hr (mem_ids_iff.mp hu), fun hp hv => hcall ⟨hp, hv⟩, hq.refunded h hr,
        hq.seen h hr⟩
    left
    rcases hinv.rest hrest with ⟨hso, hsp, hsv⟩ | ⟨hso, hsp, hsv⟩
    · obtain ⟨o, row, -, hrow, -, -, hst⟩ := h.consistent.reserved u hsv
      exact Or.inl ⟨hso, hsp, row, Table.filter_of_find? hrow, hst⟩
    · exact Or.inr ⟨hso, hsp, h.reservationsOf_eq_nil hsv⟩

/-- At rest, with every published row on its topic, every order is over, or it is stuck, and
then for ever. -/
theorem over_or_stuck (py : PyText) (stock : InventoryService.Stock) (ls : List Label)
    (hr : (runFrom (step py) (init stock) ls).Relayed)
    (hq : (runFrom (step py) (init stock) ls).Quiescent) :
    ∀ o ∈ (runFrom (step py) (init stock) ls).order.orders.rows,
      (runFrom (step py) (init stock) ls).Over o.id ∨
        ∀ after, (runFrom (step py) (init stock) (ls ++ after)).StuckOrder o.id := by
  intro o ho
  have h := inv_run py stock ls
  have hids : o.id ∈ (runFrom (step py) (init stock) ls).ids := List.mem_map_of_mem ho
  rcases hq.over_or_stuckSaga h hr hids with hover | hstuck
  · exact Or.inl hover
  · refine Or.inr fun after => ?_
    have hnone : ∀ req ∈ (runFrom (step py) (init stock) ls).pending,
        uuidIn req.sagaId ≠ some o.id := by
      intro req hreq
      simp [pending, hq.idle, hq.requests] at hreq
    refine (inv_run py stock (ls ++ after)).stuckOrder ?_
    rw [runFrom_append, h.stuck_run py hstuck hnone after]
    exact hstuck

/-- The order whose request was lost is handled to the end. -/
def toStuck : List Label :=
  dropped ++ [.publish .payment 2, .orderHandle captured (.ofKey "k4" 4) true,
    .markPublished .order 1, .markPublished .payment 2]

/-- A replay of another run does not help it. -/
theorem over_or_stuck_dropped :
    (runFrom (step noText) (init InventoryService.tenUnits) (toStuck ++ toCancelled)).StuckOrder
      10 := by
  have hrun : (runFrom (step noText) (init InventoryService.tenUnits) toStuck).Relayed ∧
      (runFrom (step noText) (init InventoryService.tenUnits) toStuck).Quiescent ∧
      ⟨10, "customer", "SKU-1", .lit 3, .lit 10, .paymentOk⟩ ∈
        (runFrom (step noText) (init InventoryService.tenUnits) toStuck).order.orders.rows ∧
      (runFrom (step noText) (init InventoryService.tenUnits) toStuck).orderStatus 10 =
        some .paymentOk := by
    decide +kernel
  obtain ⟨hrelayed, hquiescent, hmem, hstatus⟩ := hrun
  refine (over_or_stuck noText _ toStuck hrelayed hquiescent _ hmem).resolve_left ?_ toCancelled
  rintro (⟨hst, -⟩ | ⟨hst, -⟩)
  · exact absurd (hstatus.symm.trans hst) (by decide)
  · exact absurd (hstatus.symm.trans hst) (by decide)

/-! ## The events of a saga -/

/-- In every reachable state, the events of a saga follow one of the three histories, and
have followed it to the end when the saga is over. -/
theorem follows_history (py : PyText) (stock : InventoryService.Stock) (ls : List Label)
    (u : Uuid) :
    ∃ h : Saga.History, ∀ svc,
      List.IsPrefix (topicsOf u (eventsOf ((runFrom (step py) (init stock) ls).outbox svc)))
        (h.topics svc) ∧
      ((runFrom (step py) (init stock) ls).Over u →
        topicsOf u (eventsOf ((runFrom (step py) (init stock) ls).outbox svc)) =
          h.topics svc) := by
  have h := inv_run py stock ls
  obtain ⟨hist, hf⟩ := (h.consistent.inv u).exists_follows
  have htopics : ∀ svc, topicsOf u (eventsOf ((runFrom (step py) (init stock) ls).outbox svc)) =
      ((runFrom (step py) (init stock) ls).facts.saga u).topics svc := by
    intro svc
    rw [← events_facts, h.consistent.topics]
  refine ⟨hist, fun svc => ?_⟩
  rw [htopics svc]
  refine ⟨hf svc, fun hover => hf.eq_of_over (h.consistent.inv u) ?_ svc⟩
  rcases hover with ⟨ho, -, -⟩ | ⟨ho, hp, -⟩
  · exact Or.inl ⟨ho, ((h.consistent.inv u).confirmed ho).2⟩
  · exact Or.inr ⟨ho, hp⟩

/-! ## Stock -/

/-- A reservation row holds what its order asks for, and is RESERVED. -/
theorem Inv.reservation_row (h : s.Inv) {row : InventoryService.Reservation}
    (hrow : row ∈ s.inventory.reservations.rows) :
    ∃ o, s.order.orders.find? row.sagaId = some o ∧
      (s.facts.saga row.sagaId).verdict = some .reserved ∧ row.sku = o.sku ∧
      row.quantity = o.quantity ∧ row.status = .reserved := by
  have hfind := Table.mem_iff_find?.mp hrow
  by_cases hv : (s.facts.saga row.sagaId).verdict = some .reserved
  · obtain ⟨o, row', ho, hrow', hsku, hq, hst⟩ := h.consistent.reserved _ hv
    obtain rfl : row' = row := Option.some.inj (hrow'.symm.trans hfind)
    exact ⟨o, ho, hv, hsku, hq, hst⟩
  · have hnone : s.inventory.reservations.find? row.sagaId = none := h.consistent.unreserved _ hv
    simp [hnone] at hfind

/-- Inventory never announces a release. -/
theorem Inv.not_released (h : s.Inv) {e : Record} (he : e ∈ s.inventory.events) :
    e.topic ≠ .inventoryReleased := by
  intro htopic
  have hevent : e ∈ s.facts.events .inventory := he
  obtain ⟨u, hu⟩ := h.consistent.saga e ⟨.inventory, hevent⟩
  have hmem := h.consistent.mem_topics hevent hu
  rw [htopic] at hmem
  cases hv : (s.facts.saga u).verdict with
  | none => simp [Saga.topics, hv] at hmem
  | some v => cases v <;> simp [Saga.topics, hv] at hmem

/-- A cancellation finds no reservation. -/
theorem Inv.handleOrderCancelled_eq (h : s.Inv) (hn : s.Unnamed) {r : Record} (hr : r ∈ s.log)
    (htopic : r.topic = .orderCancelled) (stamp : Stamp) (inTraceparent : String) :
    ∃ outcome db, InventoryService.handleOrderCancelled s.inventory stamp r.value inTraceparent =
        .ok (outcome, db) ∧ outcome.released = false ∧ db.stock = s.inventory.stock ∧
      db.reservations = s.inventory.reservations ∧ db.outbox = s.inventory.outbox := by
  have hcommitted := h.control.log r hr
  have hmem := h.consistent.mem_events hcommitted
  rw [htopic] at hmem
  obtain ⟨u, hu⟩ := h.consistent.saga r hcommitted
  have hv := (h.consistent.inv u).cancelled
    (h.consistent.cancelled_of_committed hcommitted htopic hu)
  have hnone := h.consistent.unreserved u hv
  obtain ⟨⟨outcome, db⟩, hok⟩ := InventoryService.exists_handleOrderCancelled
    (hn r hmem htopic) hu hnone stamp inTraceparent
  refine ⟨outcome, db, hok, ?_⟩
  obtain ⟨hreleased, rfl, -⟩ | ⟨hreleased, -, -, rfl⟩ | ⟨u', row, ob, hu', hrel⟩ :=
    InventoryService.handleOrderCancelled_cases hok
  · exact ⟨hreleased, rfl, rfl, rfl⟩
  · exact ⟨hreleased, rfl, rfl, rfl⟩
  · obtain rfl : u' = u := Option.some.inj (hu'.symm.trans hu)
    exact absurd (hnone.symm.trans hrel.row) (by simp)

/-- Stock is only ever taken. -/
theorem Inv.available_step_le (h : s.Inv) (py : PyText) (l : Label)
    (hacc : ∀ u o, s.order.orders.find? u = some o → o.Accepted) (sku : String) :
    InventoryService.available (System.step py s l).inventory.stock sku ≤
      InventoryService.available s.inventory.stock sku := by
  by_cases hw : l.commits = some .inventory
  · cases l with
    | serve req newId stamp =>
      rcases step_serve h py req newId stamp with heq | ⟨-, -, -, heq⟩ |
        ⟨r, db, -, -, hc, ⟨result, hok⟩, -, -, heq⟩ <;> rw [heq]
      obtain ⟨u, o, -, ho, -, rfl⟩ := hc.request
      obtain ⟨rfl, -⟩ | ⟨-, -, -, href⟩ | ⟨-, -, -, u', -, -, ht⟩ :=
        InventoryService.reserveStock_cases hok
      · exact le_refl _
      · exact (congrArg (InventoryService.available · sku) href.stock).le
      · have hq := (hacc u o ho).positive
        have hmoved := (InventoryService.moved_of_moveStock ht.stock).available sku
        dsimp only at hmoved ⊢
        rw [hmoved]
        split_ifs <;> omega
    | inventoryHandle r stamp acked =>
      rcases step_inventoryHandle h py r stamp acked with heq | ⟨-, heq⟩ |
        ⟨outcome, db, -, -, -, hstock, -, heq⟩ <;> rw [heq]
      exact (congrArg (InventoryService.available · sku) hstock).le
    | _ => simp [Label.commits] at hw
  · rw [(inventory_frame py s hw).1]

/-- What holds along every run, whatever the stock. -/
structure Orderly (s : System) : Prop where
  inv : s.Inv
  unnamed : s.Unnamed
  accepted : ∀ u o, s.order.orders.find? u = some o → o.Accepted

theorem Orderly.step (h : s.Orderly) (py : PyText) (l : Label) : (System.step py s l).Orderly :=
  ⟨h.inv.step py l, h.inv.unnamed_step py l h.unnamed, h.inv.accepted_step py l h.accepted⟩

theorem orderly_run (py : PyText) (stock : InventoryService.Stock) (ls : List Label) :
    (runFrom (step py) (init stock) ls).Orderly := by
  refine invariant_runFrom (fun _ l h => h.step py l) ls ⟨inv_init stock, ?_, ?_⟩
  · intro r hr
    exact absurd hr List.not_mem_nil
  · intro u o ho
    simp [init, OrderService.Db.empty] at ho

theorem Orderly.available_run_le (h : s.Orderly) (py : PyText) (ls : List Label) (sku : String) :
    InventoryService.available (runFrom (System.step py) s ls).inventory.stock sku ≤
      InventoryService.available s.inventory.stock sku := by
  refine (invariant_runFrom (I := fun t : System => t.Orderly ∧
    InventoryService.available t.inventory.stock sku ≤
      InventoryService.available s.inventory.stock sku) ?_ ls ⟨h, le_refl _⟩).2
  rintro t l ⟨ht, hle⟩
  exact ⟨ht.step py l, (ht.inv.available_step_le py l ht.accepted sku).trans hle⟩

/-- In no run does Inventory release anything : its reservations stay RESERVED, it announces
no release, every cancellation that is published is handled without effect on the stock, and
what is available never grows. -/
theorem never_released (py : PyText) (stock : InventoryService.Stock) (ls : List Label) :
    (∀ row ∈ (runFrom (step py) (init stock) ls).inventory.reservations.rows,
      row.status = .reserved) ∧
    (∀ e ∈ (runFrom (step py) (init stock) ls).inventory.events,
      e.topic ≠ .inventoryReleased) ∧
    (∀ r ∈ (runFrom (step py) (init stock) ls).log, r.topic = .orderCancelled →
      ∀ stamp inTraceparent, ∃ outcome db, InventoryService.handleOrderCancelled
          (runFrom (step py) (init stock) ls).inventory stamp r.value inTraceparent =
            .ok (outcome, db) ∧ outcome.released = false ∧
        db.stock = (runFrom (step py) (init stock) ls).inventory.stock ∧
        db.reservations = (runFrom (step py) (init stock) ls).inventory.reservations ∧
        db.outbox = (runFrom (step py) (init stock) ls).inventory.outbox) ∧
    ∀ after sku,
      InventoryService.available
          (runFrom (step py) (init stock) (ls ++ after)).inventory.stock sku ≤
        InventoryService.available (runFrom (step py) (init stock) ls).inventory.stock sku := by
  have h := orderly_run py stock ls
  refine ⟨fun row hrow => ?_, fun e he => h.inv.not_released he, fun r hr htopic stamp tp => ?_,
    fun after sku => ?_⟩
  · obtain ⟨o, -, -, -, -, hst⟩ := h.inv.reservation_row hrow
    exact hst
  · exact h.inv.handleOrderCancelled_eq h.unnamed hr htopic stamp tp
  · rw [runFrom_append]
    exact h.available_run_le py after sku

/-- The units in CONFIRMED orders are reserved. -/
theorem Inv.confirmedSum_le (h : s.Inv)
    (hacc : ∀ u o, s.order.orders.find? u = some o → o.Accepted) (sku : String) :
    s.confirmedSum sku ≤ InventoryService.reservedSum s.inventory.reservations sku := by
  refine Table.sum_le_of_find? _ _ _ _ fun u => ?_
  by_cases hv : (s.facts.saga u).verdict = some .reserved
  · obtain ⟨o, row, ho, hrow, hsku, hq, hst⟩ := h.consistent.reserved u hv
    have hquantity := (hacc u o ho).positive
    rw [show s.inventory.reservations.find? u = _ from hrow,
      show s.order.orders.find? u = _ from ho]
    simp only [Option.elim_some, hsku, hq, hst, and_true]
    split_ifs <;> grind
  · rw [show s.inventory.reservations.find? u = none from h.consistent.unreserved u hv]
    cases ho : s.order.orders.find? u with
    | none => exact le_refl _
    | some o =>
      have hne : o.status ≠ .confirmed := by
        intro hst
        refine hv ((h.consistent.inv u).confirmed ?_).2
        simp [Facts.saga, facts, factsOf, ho, hst]
      simp [hne]

/-- In no run is more confirmed of a SKU than is reserved of it, and in none is more
reserved than there was. -/
theorem never_oversold (py : PyText) (stock : InventoryService.Stock)
    (hstock : ∀ row ∈ stock.rows, row.reserved.val = 0 ∧ 0 ≤ row.available.val)
    (ls : List Label) (sku : String) :
    (runFrom (step py) (init stock) ls).confirmedSum sku ≤
        InventoryService.reserved (runFrom (step py) (init stock) ls).inventory.stock sku ∧
      InventoryService.reserved (runFrom (step py) (init stock) ls).inventory.stock sku =
        InventoryService.reservedSum
          (runFrom (step py) (init stock) ls).inventory.reservations sku ∧
      InventoryService.available (runFrom (step py) (init stock) ls).inventory.stock sku +
          InventoryService.reserved (runFrom (step py) (init stock) ls).inventory.stock sku =
        InventoryService.available stock sku ∧
      0 ≤ InventoryService.available (runFrom (step py) (init stock) ls).inventory.stock sku := by
  obtain ⟨h₀, hnonneg⟩ := InventoryService.initial_stock hstock
  have ha := hnonneg sku
  have h := sane_run h₀ py ls
  have hacc := h.stocked.accounted sku
  have htotal := h.stocked.sound.total sku
  have hlower := h.stocked.sound.lower sku
  have hsum := h.inv.confirmedSum_le h.stocked.accepted sku
  rw [h₀ sku, add_zero] at htotal
  exact ⟨by omega, hacc, htotal, by omega⟩

/-- Of ten units an order has taken three. -/
theorem never_oversold_ten :
    (runFrom (step noText) (init InventoryService.tenUnits) toConfirmed).confirmedSum "SKU-1" ≤
      10 := by
  have h := never_oversold noText InventoryService.tenUnits (by decide) toConfirmed "SKU-1"
  have hten : InventoryService.available InventoryService.tenUnits "SKU-1" = 10 := by decide
  omega

/-! ## Forced failures -/

/-- Payments of the magic amount were declined. -/
def Declined (db : PaymentService.Db) : Prop :=
  ∀ u p, db.payments.find? u = some p → p.amount.isMagic = true → p.status = .failed

theorem Declined.charged {db db' : PaymentService.Db} {stamp : Stamp} {u : Uuid} {q : ℚ}
    {status : PaymentService.Status} {ob : OutboxInsert} (h : Declined db)
    (hc : PaymentService.Charged db stamp u q status ob db')
    (hq : (PaymentService.PyFloat.finite q).isMagic = true → status = .failed) :
    Declined db' := by
  intro v p hp hm
  rw [Table.find?_of_insert hc.payments] at hp
  split_ifs at hp
  · rw [← Option.some.inj hp] at hm ⊢
    exact hq hm
  · exact h v p hp hm

/-- A charge of the magic amount is declined, and one of another leaves a row of that amount. -/
theorem Declined.charge {db : PaymentService.Db} {stamp : Stamp} {forceFailure : Bool}
    {sagaId sku : String} {idem : Json} {amount : PaymentService.PyFloat} {quantity : ℤ}
    {hd : PaymentService.Handled} (h : Declined db)
    (hok : PaymentService.charge db stamp forceFailure sagaId idem amount sku quantity = .ok hd) :
    Declined hd.db := by
  by_cases hm : amount.isMagic = true
  · obtain hdb | ⟨u, q, ob, hc⟩ := PaymentService.charge_of_isMagic hok hm
    · rwa [hdb]
    · exact h.charged hc fun _ => rfl
  · obtain ⟨u, -, ⟨hdb, -⟩ | ⟨q, rfl, ⟨reason, hc, -⟩ | ⟨hc, -⟩⟩⟩ :=
      PaymentService.charge_cases hok
    · rwa [hdb]
    · exact h.charged hc fun _ => rfl
    · exact h.charged hc fun hm' => absurd hm' hm

/-- A declined payment is not refunded. -/
theorem Declined.compensation {py : PyText} {db : PaymentService.Db} {env : Envelope}
    {stamp : Stamp} {hd : PaymentService.Handled} (h : Declined db)
    (hok : PaymentService.handleCompensation py db env.parsed stamp = .ok hd) : Declined hd.db := by
  obtain ⟨-, ⟨hdb, -⟩ | ⟨u, amount, -, hc, -⟩⟩ :=
    PaymentService.handleCompensation_parsed_cases hok
  · rwa [hdb]
  · have htables := hc.tables
    intro v p hp hm
    split_ifs at htables with hst
    · rw [htables.1, PaymentService.find?_setRefunded] at hp
      split_ifs at hp
      · obtain ⟨p₀, hp₀, rfl⟩ := Option.map_eq_some_iff.mp hp
        rw [hp₀, Option.map_some, h u p₀ hp₀ hm] at hst
        exact absurd hst (by decide)
      · exact h v p hp hm
    · rw [htables.1] at hp
      exact h v p hp hm

/-- Inventory reserves no poison, and Payment declines the magic amount. -/
structure Forced (s : System) : Prop where
  poison : ∀ row ∈ s.inventory.reservations.rows, InventoryService.isPoisonSku row.sku = false
  magic : Declined s.payment

theorem Inv.poison_step (h : s.Inv) (py : PyText) (l : Label) (hf : s.Forced)
    (row : InventoryService.Reservation)
    (hrow : row ∈ (System.step py s l).inventory.reservations.rows) :
    InventoryService.isPoisonSku row.sku = false := by
  by_cases hw : l.commits = some .inventory
  · cases l with
    | serve req newId stamp =>
      rcases step_serve h py req newId stamp with heq | ⟨-, -, -, heq⟩ |
        ⟨r, db, -, -, -, ⟨result, hok⟩, -, -, heq⟩ <;> rw [heq] at hrow
      · exact hf.poison row hrow
      · exact hf.poison row hrow
      · obtain ⟨rfl, -⟩ | ⟨-, -, -, href⟩ | ⟨-, hclean, -, u, -, -, ht⟩ :=
          InventoryService.reserveStock_cases hok
        · exact hf.poison row hrow
        · exact hf.poison row (href.reservations ▸ hrow)
        · have hmem : row ∈ db.reservations.rows := hrow
          rw [ht.reservations] at hmem
          rcases InventoryService.mem_upsertReservation hmem with hmem | rfl
          · exact hf.poison row hmem
          · exact hclean
    | inventoryHandle r stamp acked =>
      rcases step_inventoryHandle h py r stamp acked with heq | ⟨-, heq⟩ |
        ⟨outcome, db, -, -, -, -, hres, heq⟩ <;> rw [heq] at hrow
      · exact hf.poison row hrow
      · exact hf.poison row hrow
      · exact hf.poison row (hres ▸ hrow)
    | _ => simp [Label.commits] at hw
  · rw [(inventory_frame py s hw).2.1] at hrow
    exact hf.poison row hrow

theorem Inv.magic_step (h : s.Inv) (py : PyText) (l : Label) (hf : s.Forced) :
    Declined (System.step py s l).payment := by
  by_cases hw : l.commits = some .payment
  · cases l with
    | paymentHandle r forceFailure stamp =>
      rcases step_paymentHandle h py r forceFailure stamp with heq | ⟨-, -, heq⟩ |
        ⟨hd, -, -, hok, hproc, -, heq⟩ <;> rw [heq]
      · exact hf.magic
      · exact hf.magic
      · have hconsumes : r.topic ∈ PaymentService.consumedTopics := hproc.topic
        have htopic : r.topic = .orderCreated ∨ r.topic = .inventoryReservationFailed := by
          simpa [PaymentService.consumedTopics] using hconsumes
        rcases htopic with htopic | htopic <;> rw [htopic, PaymentService.handle] at hok
        · obtain ⟨amount, sku, quantity, hok⟩ :=
            PaymentService.handleOrderCreated_parsed_eq_ok hok
          exact hf.magic.charge hok
        · exact hf.magic.compensation hok
    | _ => simp [Label.commits] at hw
  · intro u p hp
    rw [(payment_frame py s hw).1] at hp
    exact hf.magic u p hp

theorem forced_run (py : PyText) (stock : InventoryService.Stock) (ls : List Label) :
    (runFrom (step py) (init stock) ls).Amounts ∧
      (runFrom (step py) (init stock) ls).Forced := by
  refine (invariant_runFrom (I := fun s : System => s.Inv ∧ s.Amounts ∧ s.Forced)
    (fun s l h => ⟨h.1.step py l, h.1.amounts_step h.2.1 py l,
      h.1.poison_step py l h.2.2, h.1.magic_step py l h.2.2⟩) ls
    ⟨inv_init stock, amounts_init stock, ?_, ?_⟩).2
  · intro row hrow
    exact absurd hrow List.not_mem_nil
  · intro u p hp
    simp [init, PaymentService.Db.empty] at hp

/-- In every run, an order of the poison SKU is never CONFIRMED and has no reservation, and
the payment of an order of the magic amount is declined or not yet made, with the order never
further than PENDING or CANCELLED and Inventory never asked. -/
theorem forced_failures (py : PyText) (stock : InventoryService.Stock) (ls : List Label) :
    ∀ o ∈ (runFrom (step py) (init stock) ls).order.orders.rows,
      (InventoryService.isPoisonSku o.sku = true →
        o.status ≠ .confirmed ∧
          (runFrom (step py) (init stock) ls).reservationsOf o.id = []) ∧
      ((PaymentService.PyFloat.finite o.amount.val).isMagic = true →
        ((runFrom (step py) (init stock) ls).paymentStatus o.id = none ∨
          (runFrom (step py) (init stock) ls).paymentStatus o.id = some .failed) ∧
        (o.status = .pending ∨ o.status = .cancelled) ∧
        ¬(runFrom (step py) (init stock) ls).HasVerdict o.id) := by
  intro o ho
  have h := inv_run py stock ls
  obtain ⟨hamounts, hforced⟩ := forced_run py stock ls
  have hfind := Table.mem_iff_find?.mp ho
  have hso : ((runFrom (step py) (init stock) ls).facts.saga o.id).order = some o.status := by
    simp [Facts.saga, facts, factsOf, hfind]
  have hinv := h.consistent.inv o.id
  constructor
  · intro hpoison
    have hv : ((runFrom (step py) (init stock) ls).facts.saga o.id).verdict ≠
        some .reserved := by
      intro hv
      obtain ⟨o', row, ho', hrow, hsku, -, -⟩ := h.consistent.reserved o.id hv
      obtain rfl : o' = o := Option.some.inj (ho'.symm.trans hfind)
      have hclean := hforced.poison row (Table.find?_eq_some.mp hrow).1
      rw [hsku, hpoison] at hclean
      exact absurd hclean (by decide)
    refine ⟨fun hst => hv (hinv.confirmed (hst ▸ hso)).2, h.reservationsOf_eq_nil hv⟩
  · intro hmagic
    have hpayment : (runFrom (step py) (init stock) ls).paymentStatus o.id = none ∨
        (runFrom (step py) (init stock) ls).paymentStatus o.id = some .failed := by
      cases hp : (runFrom (step py) (init stock) ls).payment.payments.find? o.id with
      | none => exact Or.inl (by simp [paymentStatus, hp])
      | some p =>
        obtain ⟨o', ho', hamount⟩ := hamounts.charged o.id p hp
        rw [Option.some.inj (ho'.symm.trans hfind)] at hamount
        have hst := hforced.magic o.id p hp (by rwa [hamount])
        exact Or.inr (by simp [paymentStatus, hp, hst])
    have hpub : ¬((runFrom (step py) (init stock) ls).facts.saga o.id).Published
        .paymentProcessed := by
      intro hpub
      rcases hpayment with hp | hp <;> rcases hpub with hp' | hp' <;>
        exact absurd (hp.symm.trans hp') (by decide)
    have hv := hinv.verdict_of_not_captured hpub
    refine ⟨hpayment, ?_, fun hverdict => h.hasVerdict_iff.mp hverdict hv⟩
    have hstatus := hinv.status
    have hno : ∀ t, t ≠ .paymentFailed →
        ((runFrom (step py) (init stock) ls).facts.saga o.id).seen t ≠ true := by
      intro t ht hseen
      have ht' := hinv.seen t hseen
      cases t with
      | paymentProcessed => exact hpub ht'
      | paymentFailed => exact ht rfl
      | paymentRefunded =>
        rcases hpayment with hp | hp <;> exact absurd (hp.symm.trans ht') (by decide)
      | inventoryReserved => exact absurd (hv.symm.trans ht') (by decide)
      | inventoryReservationFail => exact absurd (hv.symm.trans ht') (by decide)
    rw [hso] at hstatus
    have hprocessed := hno .paymentProcessed (by decide)
    have hreserved := hno .inventoryReserved (by decide)
    cases hst : o.status with
    | pending => exact Or.inl rfl
    | cancelled => exact Or.inr rfl
    | _ => simp_all [Saga.StatusInv]

theorem fitsDouble_magicFailureAmount : FitsDouble PaymentService.magicFailureAmount := by
  decide +kernel

/-- The magic amount. -/
def magicAmount : Float64 := ⟨PaymentService.magicFailureAmount, fitsDouble_magicFailureAmount⟩

/-- An order of the poison SKU at the magic amount is charged. -/
def toDeclined : List Label :=
  [.createOrder ⟨"customer", InventoryService.poisonSku, .lit 3, magicAmount⟩
      InventoryService.sagaA (.ofKey "k1" 1),
    .publish .order 1,
    .paymentHandle (OrderService.orderCreatedEvent (.ofKey "k1" 1) InventoryService.sagaA
      "customer" InventoryService.poisonSku (.lit 3) magicAmount).record false (.ofKey "k2" 2)]

theorem forced_failures_declined :
    (runFrom (step noText) (init InventoryService.tenUnits) toDeclined).paymentStatus 10 =
        some .failed ∧
      (runFrom (step noText) (init InventoryService.tenUnits) toDeclined).reservationsOf 10 = [] ∧
      ¬(runFrom (step noText) (init InventoryService.tenUnits) toDeclined).HasVerdict 10 := by
  have hrun : ⟨10, "customer", InventoryService.poisonSku, .lit 3, magicAmount, .pending⟩ ∈
        (runFrom (step noText) (init InventoryService.tenUnits) toDeclined).order.orders.rows ∧
      (runFrom (step noText) (init InventoryService.tenUnits) toDeclined).paymentStatus 10 ≠
        none := by
    decide +kernel
  obtain ⟨hpoison, hmagic⟩ := forced_failures noText InventoryService.tenUnits toDeclined _ hrun.1
  obtain ⟨hpayment, -, hverdict⟩ := hmagic (by decide +kernel)
  exact ⟨hpayment.resolve_left hrun.2, (hpoison (by decide)).2, hverdict⟩

end System

end Choreography
