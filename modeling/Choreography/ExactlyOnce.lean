import Choreography.Refinement

/-!
# At-least-once delivery, exactly-once effect

Relays publish a row again after a failure, and consumers are given a message again after
one. `exactly_once_effect` removes all of it : for every run there is one that reaches the
same databases, in which no message is published twice, and every message that a service is
given is given to it once and handled to completion.

The proof is a simulation. `Track` is what differs between the two runs, the log, the
handled messages and the requests on their way, and `Tracks` relates it to the state of the
first run. A delivery that changes nothing is left out; one that is processed is repeated
as one that is completed (`tracks_orderHandle`, `tracks_paymentHandle`,
`tracks_inventoryHandle`), where Payment's call is cut off at once and its request is kept
for the moment when it is served.
-/

namespace Choreography.System

open PaymentService (PyText)

variable {s s' : System} {py : PyText} {r : Record} {stamp : Stamp}

/-! ## Deliveries -/

/-- The delivery of a message to a service. -/
def delivery : Label → Option (Service × Record)
  | .orderHandle r _ _ => some (.order, r)
  | .paymentHandle r _ _ => some (.payment, r)
  | .inventoryHandle r _ _ => some (.inventory, r)
  | _ => none

/-- The deliveries of a run, in order. -/
def deliveries (ls : List Label) : List (Service × Record) := ls.filterMap delivery

/-- The log, the handled messages and the calls of a state in which Payment is idle. -/
structure Track where
  log : List Record
  handled : List (Service × Record)
  requests : List ReserveStockRequest
  replies : List ReserveStockRequest

/-- The databases of `s` with another track. -/
def Track.of (k : Track) (s : System) : System :=
  ⟨s.order, s.payment, s.inventory, k.log, k.handled, none, k.requests, k.replies⟩

/-- The track has the published messages once each, what the services have processed, and
the requests that are still to be decided. -/
structure Tracks (s : System) (k : Track) : Prop where
  nodup : k.log.Nodup
  log : ∀ r, r ∈ k.log ↔ r ∈ s.log
  once : k.handled.Nodup
  handled : ∀ svc r, s.facts.Committed r → r.topic ∈ svc.consumes → s.facts.Processed svc r →
    (svc, r) ∈ k.handled
  requests : ∀ req ∈ s.pending, ¬s.facts.Decided req → req ∈ k.requests

/-- The run `ks` on the track `k` answers a step to `s'`. -/
def Answers (py : PyText) (s s' : System) (k : Track) (ks : List Label) (k' : Track) : Prop :=
  runFrom (step py) (k.of s) ks = k'.of s' ∧ (deliveries ks ++ k.handled).Perm k'.handled ∧
    s'.Tracks k'

/-- A step that changes no database is left out. -/
theorem Tracks.skip {k : Track} (h : s.Tracks k) (horder : s'.order = s.order)
    (hpayment : s'.payment = s.payment) (hinventory : s'.inventory = s.inventory)
    (hlog : ∀ r, r ∈ s'.log ↔ r ∈ s.log) (hpending : ∀ req ∈ s'.pending, req ∈ s.pending) :
    ∃ ks k', Answers py s s' k ks k' := by
  have hfacts : s'.facts = s.facts := by
    simp only [facts, horder, hpayment, hinventory]
  refine ⟨[], k, ?_, List.Perm.refl _, h.nodup, fun r => (h.log r).trans (hlog r).symm, h.once,
    ?_, ?_⟩
  · simp only [runFrom_nil, Track.of, horder, hpayment, hinventory]
  · rw [hfacts]
    exact h.handled
  · rw [hfacts]
    exact fun req hreq => h.requests req (hpending req hreq)

/-- A transaction is tracked with the message that it processes. -/
theorem Tracks.advance {k : Track} (h : s.Tracks k) (hi : s.Inv) (s' : System)
    {m : Option (Service × Record)} (hstep : s.facts.Step m s'.facts)
    (hnew : ∀ x, m = some x → x ∉ k.handled) (hlog : s'.log = s.log)
    {requests replies : List ReserveStockRequest}
    (hreq : ∀ req ∈ s'.pending, ¬s'.facts.Decided req → req ∈ requests) :
    s'.Tracks ⟨k.log, m.toList ++ k.handled, requests, replies⟩ := by
  refine ⟨h.nodup, fun r => hlog ▸ h.log r, ?_, fun svc r hr ht hp => ?_, hreq⟩
  · cases m with
    | none => exact h.once
    | some x => exact List.nodup_cons.mpr ⟨hnew x rfl, h.once⟩
  · rcases hstep.processed hi.consistent hr hp with ⟨hr', hp'⟩ | rfl
    · exact List.mem_append_right _ (h.handled svc r hr' ht hp')
    · exact List.mem_append_left _ (by simp)

/-- A request that is pending after a transaction was pending before, and undecided. -/
theorem Tracks.requests_of {k : Track} (h : s.Tracks k) (hext : s.facts.Extends s'.facts)
    (hpending : ∀ req ∈ s'.pending, req ∈ s.pending) :
    ∀ req ∈ s'.pending, ¬s'.facts.Decided req → req ∈ k.requests :=
  fun req hreq hd => h.requests req (hpending req hreq) fun hd' => hd (hext.decided hd')

/-- A message that is not processed is not tracked as handled. -/
theorem not_mem_handled {k : Track} (hk : (k.of s).Inv) {svc : Service}
    (hnew : ¬s.facts.Processed svc r) : ∀ x, some (svc, r) = some x → x ∉ k.handled := by
  rintro x hx hm
  rw [← Option.some.inj hx] at hm
  exact hnew (hk.control.handled svc r hm).processed

/-! ## One step -/

theorem tracks_createOrder {k : Track} (h : s.Tracks k) (hi : s.Inv)
    (req : OrderService.CreateOrderRequest) (orderId : String) (stamp : Stamp) :
    ∃ ks k', Answers py s (step py s (.createOrder req orderId stamp)) k ks k' := by
  have hext := hi.step_extends py (.createOrder req orderId stamp)
  rcases step_createOrder py s req orderId stamp with heq | ⟨db, hf, hok, heq⟩ <;>
    rw [heq] at hext ⊢
  · exact h.skip rfl rfl rfl (fun _ => Iff.rfl) fun _ hreq => hreq
  · refine ⟨[.createOrder req orderId stamp], k, ?_, List.Perm.refl _, ?_⟩
    · have hstep : step py (k.of s) (.createOrder req orderId stamp) = _ := if_pos hf
      rw [runFrom_cons, runFrom_nil, hstep]
      simp only [Track.of, hok]
    · refine h.advance hi { s with order := db } (step_of_createOrder hf hok)
        (fun _ hx => nomatch hx) rfl ?_
      exact h.requests_of hext fun _ hreq => hreq

theorem tracks_publish {k : Track} (h : s.Tracks k) (svc : Service) (id : Uuid) :
    ∃ ks k', Answers py s (step py s (.publish svc id)) k ks k' := by
  rcases step_publish py s svc id with heq | ⟨row, hrow, heq⟩ <;> rw [heq]
  · exact h.skip rfl rfl rfl (fun _ => Iff.rfl) fun _ hreq => hreq
  by_cases hmem : row.record ∈ s.log
  · refine h.skip rfl rfl rfl (fun r => ?_) fun _ hreq => hreq
    rw [List.mem_append, List.mem_singleton]
    constructor
    · rintro (hr | rfl)
      · exact hr
      · exact hmem
    · exact Or.inl
  · have hrow' : ((k.of s).outbox svc).find? id = some row := by
      cases svc <;> exact hrow
    refine ⟨[.publish svc id], { k with log := k.log ++ [row.record] }, ?_, List.Perm.refl _, ?_⟩
    · rw [runFrom_cons, runFrom_nil]
      simp only [step, hrow']
      rfl
    · refine ⟨?_, fun r => ?_, h.once, h.handled, h.requests⟩
      · rw [← List.concat_eq_append]
        exact h.nodup.concat fun hr => hmem ((h.log _).mp hr)
      · simp only [List.mem_append, h.log r]

theorem of_setOutbox (k : Track) (s : System) (svc : Service) (ob : Outbox) :
    (k.of s).setOutbox svc ob = k.of (s.setOutbox svc ob) := by
  cases svc <;> rfl

theorem outbox_of (k : Track) (s : System) (svc : Service) :
    (k.of s).outbox svc = s.outbox svc := by
  cases svc <;> rfl

theorem Tracks.setOutbox {k : Track} (h : s.Tracks k) {svc : Service} {ob : Outbox}
    (hob : eventsOf ob = eventsOf (s.outbox svc)) : (s.setOutbox svc ob).Tracks k := by
  have hpending : (s.setOutbox svc ob).pending = s.pending := by
    simp only [pending, working_setOutbox, requests_setOutbox]
  refine ⟨h.nodup, s.log_setOutbox svc ob ▸ h.log, h.once, ?_, ?_⟩
  · rw [facts_setOutbox hob]
    exact h.handled
  · rw [facts_setOutbox hob, hpending]
    exact h.requests

theorem tracks_markPublished {k : Track} (h : s.Tracks k) (svc : Service) (id : Uuid) :
    ∃ ks k', Answers py s (step py s (.markPublished svc id)) k ks k' := by
  refine ⟨[.markPublished svc id], k, ?_, List.Perm.refl _,
    h.setOutbox (eventsOf_markPublished _ _)⟩
  rw [runFrom_cons, runFrom_nil]
  simp only [step, outbox_of]
  exact of_setOutbox k s svc _

theorem tracks_markFailed {k : Track} (h : s.Tracks k) (svc : Service) (id : Uuid) :
    ∃ ks k', Answers py s (step py s (.markFailed svc id)) k ks k' := by
  refine ⟨[.markFailed svc id], k, ?_, List.Perm.refl _, h.setOutbox (eventsOf_markFailed _ _)⟩
  rw [runFrom_cons, runFrom_nil]
  simp only [step, outbox_of]
  exact of_setOutbox k s svc _

theorem tracks_orderHandle {k : Track} (h : s.Tracks k) (hi : s.Inv) (hk : (k.of s).Inv)
    (r : Record) (stamp : Stamp) (acked : Bool) :
    ∃ ks k', Answers py s (step py s (.orderHandle r stamp acked)) k ks k' := by
  have hext := hi.step_extends py (.orderHandle r stamp acked)
  rcases step_orderHandle hi py r stamp acked with heq | ⟨-, heq⟩ |
    ⟨db, hf, hdb, herr, hp, -, heq⟩ <;> rw [heq] at hext ⊢
  · exact h.skip rfl rfl rfl (fun _ => Iff.rfl) fun _ hreq => hreq
  · exact h.skip rfl rfl rfl (fun _ => Iff.rfl) fun _ hreq => hreq
  · refine ⟨[.orderHandle r stamp true], { k with handled := (.order, r) :: k.handled }, ?_,
      List.Perm.refl _, ?_⟩
    · have hstep : step py (k.of s) (.orderHandle r stamp true) = _ :=
        if_pos ⟨(h.log r).mpr hp.log, hp.topic, hf⟩
      rw [runFrom_cons, runFrom_nil, hstep]
      simp only [Track.of, hdb, herr, and_self, if_true]
    · refine h.advance hi { s with order := db, handled := _ } hp.step (not_mem_handled hk hp.new)
        rfl ?_
      exact h.requests_of hext fun _ hreq => hreq

theorem tracks_inventoryHandle {k : Track} (h : s.Tracks k) (hi : s.Inv) (hk : (k.of s).Inv)
    (r : Record) (stamp : Stamp) (acked : Bool) :
    ∃ ks k', Answers py s (step py s (.inventoryHandle r stamp acked)) k ks k' := by
  have hext := hi.step_extends py (.inventoryHandle r stamp acked)
  rcases step_inventoryHandle hi py r stamp acked with heq | ⟨-, heq⟩ |
    ⟨outcome, db, hf, hok, hp, -, -, heq⟩ <;> rw [heq] at hext ⊢
  · exact h.skip rfl rfl rfl (fun _ => Iff.rfl) fun _ hreq => hreq
  · exact h.skip rfl rfl rfl (fun _ => Iff.rfl) fun _ hreq => hreq
  · refine ⟨[.inventoryHandle r stamp true], { k with handled := (.inventory, r) :: k.handled }, ?_,
      List.Perm.refl _, ?_⟩
    · have hstep : step py (k.of s) (.inventoryHandle r stamp true) = _ :=
        if_pos ⟨(h.log r).mpr hp.log, hp.topic, hf⟩
      rw [runFrom_cons, runFrom_nil, hstep]
      simp only [Track.of, hok, if_true]
    · refine h.advance hi { s with inventory := db, handled := _ } hp.step
        (not_mem_handled hk hp.new) rfl ?_
      exact h.requests_of hext fun _ hreq => hreq

theorem tracks_paymentHandle {k : Track} (h : s.Tracks k) (hi : s.Inv) (hk : (k.of s).Inv)
    (r : Record) (forceFailure : Bool) (stamp : Stamp) :
    ∃ ks k', Answers py s (step py s (.paymentHandle r forceFailure stamp)) k ks k' := by
  have hext := hi.step_extends py (.paymentHandle r forceFailure stamp)
  rcases step_paymentHandle hi py r forceFailure stamp with heq | ⟨hw, -, heq⟩ |
    ⟨hd, hw, hf, hok, hp, hc, heq⟩ <;> rw [heq] at hext ⊢
  · exact h.skip rfl rfl rfl (fun _ => Iff.rfl) fun _ hreq => hreq
  · refine h.skip rfl rfl rfl (fun _ => Iff.rfl) fun req hreq => mem_pending.mpr (Or.inr ?_)
    exact hreq
  have hstep : step py (k.of s) (.paymentHandle r forceFailure stamp) =
      { k.of s with payment := hd.db, working := goOn r hd.next } := by
    have hpos : step py (k.of s) (.paymentHandle r forceFailure stamp) = _ :=
      if_pos ⟨(h.log r).mpr hp.log, hp.topic, rfl, hf⟩
    rw [hpos]
    simp only [Track.of, hok]
  have hnew := not_mem_handled hk hp.new
  have hpending : ∀ req ∈ s.requests, req ∈ s.pending := fun _ hreq => mem_pending.mpr (Or.inr hreq)
  cases hnext : hd.next with
  | done =>
    rw [hnext] at hext hstep
    refine ⟨[.paymentHandle r forceFailure stamp, .commitOffset],
      { k with handled := (.payment, r) :: k.handled }, ?_, List.Perm.refl _, ?_⟩
    · rw [runFrom_cons, hstep]
      rfl
    · refine h.advance hi { s with payment := hd.db, working := _ } hp.step hnew rfl ?_
      exact h.requests_of hext hpending
  | reserve req =>
    rw [hnext] at hext hstep
    -- the call is cut off, and the request stays until it is served
    refine ⟨[.paymentHandle r forceFailure stamp, .call, .fail, .commitOffset],
      { k with handled := (.payment, r) :: k.handled, requests := req :: k.requests }, ?_,
      List.Perm.refl _, ?_⟩
    · rw [runFrom_cons, hstep]
      rfl
    · refine h.advance hi { s with payment := hd.db, working := _ } hp.step hnew rfl ?_
      intro req' hreq' hd'
      rcases List.mem_cons.mp hreq' with rfl | hreq'
      · exact List.mem_cons_self
      · refine List.mem_cons_of_mem _ (h.requests req' (hpending req' hreq') fun hd₀ => hd' ?_)
        exact hext.decided hd₀
  | raise =>
    rw [hnext] at hc
    exact hc.elim

theorem tracks_serve {k : Track} (h : s.Tracks k) (hi : s.Inv) (req : ReserveStockRequest)
    (newId : Uuid) (stamp : Stamp) :
    ∃ ks k', Answers py s (step py s (.serve req newId stamp)) k ks k' := by
  have hext := hi.step_extends py (.serve req newId stamp)
  have herase : ∀ {s' : System}, s'.working = s.working → s'.requests = s.requests.erase req →
      ∀ req' ∈ s'.pending, req' ∈ s.pending := by
    intro s' hw hreqs req' hreq'
    rw [mem_pending, hw, hreqs] at hreq'
    exact mem_pending.mpr (hreq'.imp_right List.mem_of_mem_erase)
  rcases step_serve hi py req newId stamp with heq | ⟨-, -, -, heq⟩ |
    ⟨r, db, hreq, hf, -, ⟨result, hok⟩, hcases, hd, heq⟩ <;> rw [heq] at hext ⊢
  · exact h.skip rfl rfl rfl (fun _ => Iff.rfl) fun _ hreq => hreq
  · exact h.skip rfl rfl rfl (fun _ => Iff.rfl) (herase rfl rfl)
  rcases hcases with rfl | ⟨hundecided, hstep⟩
  · exact h.skip rfl rfl rfl (fun _ => Iff.rfl) (herase rfl rfl)
  -- an undecided request is still on its way in the other run
  have hmem : req ∈ k.requests := h.requests req (mem_pending.mpr (Or.inr hreq)) hundecided
  refine ⟨[.serve req newId stamp],
    { k with requests := k.requests.erase req, replies := req :: k.replies }, ?_,
    List.Perm.refl _, ?_⟩
  · have hpos : step py (k.of s) (.serve req newId stamp) = _ := if_pos ⟨hmem, hf⟩
    rw [runFrom_cons, runFrom_nil, hpos]
    simp only [Track.of, hok]
  · refine h.advance hi { s with inventory := db, requests := _, replies := _ } hstep
      (fun _ hx => nomatch hx) rfl ?_
    intro req' hreq' hd'
    have hne : req' ≠ req := fun he => hd' (he ▸ hd)
    refine (List.mem_erase_of_ne hne).mpr ?_
    exact h.requests_of hext (herase rfl rfl) req' hreq' hd'

/-- A step of Payment's handler that is not a transaction is left out. -/
theorem tracks_call {k : Track} (h : s.Tracks k) {l : Label} (hl : l.writes = none)
    (hpub : ∀ svc id, l ≠ .publish svc id) : ∃ ks k', Answers py s (step py s l) k ks k' := by
  have hskip : ∃ ks k', Answers py s s k ks k' :=
    h.skip rfl rfl rfl (fun _ => Iff.rfl) fun _ hreq => hreq
  -- the handler has no request of its own, and the others are as before
  have hidle : ∀ {s' : System}, (∀ r req, s'.working ≠ some ⟨r, .reserve req⟩) →
      s'.requests ⊆ s.requests → ∀ req ∈ s'.pending, req ∈ s.pending := by
    intro s' hw hreqs req hreq
    rcases mem_pending.mp hreq with ⟨r, hr⟩ | hreq
    · exact absurd hr (hw r req)
    · exact mem_pending.mpr (Or.inr (hreqs hreq))
  cases l with
  | publish svc id => exact absurd rfl (hpub svc id)
  | call =>
    rcases step_call py s with heq | ⟨r, req, hw, heq⟩ <;> rw [heq]
    · exact hskip
    · refine h.skip rfl rfl rfl (fun _ => Iff.rfl) fun req' hreq' => ?_
      rcases List.mem_cons.mp hreq' with rfl | hreq'
      · exact mem_pending.mpr (Or.inl ⟨r, hw⟩)
      · exact mem_pending.mpr (Or.inr hreq')
  | drop req =>
    refine h.skip rfl rfl rfl (fun _ => Iff.rfl) fun req' hreq' => ?_
    exact mem_pending.mpr ((mem_pending.mp hreq').imp_right List.mem_of_mem_erase)
  | reply =>
    rcases step_reply py s with heq | ⟨r, req, hw, -, heq⟩ <;> rw [heq]
    · exact hskip
    · exact h.skip rfl rfl rfl (fun _ => Iff.rfl) (hidle (by simp) fun _ hreq => hreq)
  | fail =>
    rcases step_fail py s with heq | ⟨r, req, hw, heq⟩ <;> rw [heq]
    · exact hskip
    · exact h.skip rfl rfl rfl (fun _ => Iff.rfl) (hidle (by simp) fun _ hreq => hreq)
  | commitOffset =>
    rcases step_commitOffset py s with heq | ⟨r, hw, heq⟩ <;> rw [heq]
    · exact hskip
    · exact h.skip rfl rfl rfl (fun _ => Iff.rfl) (hidle (by simp) fun _ hreq => hreq)
  | crash => exact h.skip rfl rfl rfl (fun _ => Iff.rfl) (hidle (by simp [step]) fun _ hreq => hreq)
  | _ => cases hl

/-- Every step is answered. -/
theorem tracks_step {k : Track} (h : s.Tracks k) (hi : s.Inv) (hk : (k.of s).Inv) (py : PyText)
    (l : Label) : ∃ ks k', Answers py s (step py s l) k ks k' := by
  cases l with
  | createOrder req orderId stamp => exact tracks_createOrder h hi req orderId stamp
  | publish svc id => exact tracks_publish h svc id
  | markPublished svc id => exact tracks_markPublished h svc id
  | markFailed svc id => exact tracks_markFailed h svc id
  | orderHandle r stamp acked => exact tracks_orderHandle h hi hk r stamp acked
  | paymentHandle r forceFailure stamp => exact tracks_paymentHandle h hi hk r forceFailure stamp
  | serve req newId stamp => exact tracks_serve h hi req newId stamp
  | inventoryHandle r stamp acked => exact tracks_inventoryHandle h hi hk r stamp acked
  | _ => exact tracks_call h rfl nofun

/-! ## The whole run -/

/-- The state of the other run, with the databases of `s`. -/
def Twin (s t : System) : Prop := s.Inv ∧ t.Inv ∧ ∃ k : Track, t = k.of s ∧ s.Tracks k

/-- The messages that the run `ls` delivers from `t` are those it adds to the handled. -/
def Completes (py : PyText) (t : System) (ls : List Label) : Prop :=
  (deliveries ls ++ t.handled).Perm (runFrom (step py) t ls).handled

theorem Completes.append {t : System} {ls ls' : List Label} (h : Completes py t ls)
    (h' : Completes py (runFrom (step py) t ls) ls') : Completes py t (ls ++ ls') := by
  unfold Completes at h h' ⊢
  rw [runFrom_append]
  refine List.Perm.trans ?_ h'
  rw [deliveries, List.filterMap_append, ← deliveries, ← deliveries]
  calc (deliveries ls ++ deliveries ls' ++ t.handled).Perm
        (deliveries ls' ++ deliveries ls ++ t.handled) := List.perm_append_comm.append_right _
    _ = deliveries ls' ++ (deliveries ls ++ t.handled) := List.append_assoc _ _ _
    (deliveries ls' ++ (deliveries ls ++ t.handled)).Perm _ := h.append_left _

theorem twin_step (py : PyText) (s t : System) (l : Label) (h : s.Twin t) :
    ∃ ks, Completes py t ks ∧ (step py s l).Twin (runFrom (step py) t ks) := by
  obtain ⟨hi, ht, k, rfl, hk⟩ := h
  obtain ⟨ks, k', hrun, hperm, hk'⟩ := tracks_step hk hi ht py l
  refine ⟨ks, ?_, hi.step py l, ?_, k', hrun, hk'⟩
  · rw [Completes, hrun]
    exact hperm
  · exact invariant_runFrom (fun _ l h => h.step py l) ks ht

theorem twin_init (stock : InventoryService.Stock) : (init stock).Twin (init stock) := by
  have hi := inv_init stock
  refine ⟨hi, hi, ⟨[], [], [], []⟩, rfl, List.nodup_nil, fun _ => Iff.rfl, List.nodup_nil, ?_, ?_⟩
  · rintro svc r ⟨svc', hr⟩
    cases svc' <;> exact absurd hr List.not_mem_nil
  · exact fun req hreq => absurd hreq List.not_mem_nil

/-- The run `ls` has led to `t`, with the databases of `s` and nothing done twice. -/
structure ExactlyOnce (s t : System) (ls : List Label) : Prop where
  order : t.order = s.order
  payment : t.payment = s.payment
  inventory : t.inventory = s.inventory
  /-- What is published in `s` is published once, and nothing else is. -/
  published : ∀ r, t.log.count r = if r ∈ s.log then 1 else 0
  /-- What is handled in `s` is delivered once. -/
  handled : ∀ d ∈ s.handled, (deliveries ls).count d = 1
  /-- No message is delivered twice to a service. -/
  delivered : ∀ d, (deliveries ls).count d ≤ 1
  /-- Every delivery is handled to completion, and none is left in the middle. -/
  completed : (deliveries ls).Perm t.handled
  idle : t.working = none

theorem Twin.exactlyOnce {t : System} {ls : List Label} (h : s.Twin t)
    (hperm : (deliveries ls).Perm t.handled) : ExactlyOnce s t ls := by
  obtain ⟨hi, -, k, rfl, hk⟩ := h
  have hcount : ∀ d, (deliveries ls).count d = if d ∈ k.handled then 1 else 0 :=
    fun d => (hperm.count_eq d).trans hk.once.count
  refine ⟨rfl, rfl, rfl, fun r => ?_, fun ⟨svc, r⟩ hd => ?_, fun d => ?_, hperm, rfl⟩
  · simp only [Track.of, hk.nodup.count, hk.log]
  · have hdone := hi.control.handled svc r hd
    have hr := hi.control.log r hdone.log
    rw [hcount, if_pos (hk.handled svc r hr hdone.topic hdone.processed)]
  · rw [hcount]
    split_ifs <;> simp

/-- At-least-once delivery has exactly-once effect : whatever is published, delivered and
lost in a run, and however often, some run with every message published once and handled
once leads to the same databases. -/
theorem exactly_once_effect (py : PyText) (stock : InventoryService.Stock) (ls : List Label) :
    ∃ ls', ExactlyOnce (runFrom (step py) (init stock) ls) (runFrom (step py) (init stock) ls')
      ls' := by
  obtain ⟨ls', hperm, h⟩ := exists_runFrom_of_simulation (P := Completes py)
    (fun _ => List.Perm.refl _) (fun _ _ _ => Completes.append) (twin_step py) ls
    (twin_init stock)
  refine ⟨ls', h.exactlyOnce ?_⟩
  rw [← List.append_nil (deliveries ls')]
  exact hperm

end Choreography.System
