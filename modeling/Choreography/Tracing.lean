import Choreography.Rest

/-!
# Trace propagation

Every handler runs in a span, and the trace context of that span travels with what the
handler sends : in the `traceparent` of the outbox row, in the header and the body of the
message that the relay publishes, and in the metadata of ReserveStock. The next handler
extracts it and starts a child of that span.

`Propagator` is the W3C propagator of OpenTelemetry, with the laws that the services rely
on. `Traced` is the composed system with its spans : a step draws the ids of a span, and
its stamp carries the context of that span, as the services compute it.

All events and requests of a saga are in the trace that CreateOrder started (`one_trace`), two
events are in one trace exactly if they are of one saga (`same_trace_iff`), and no span is an
orphan : each descends from the span of a CreateOrder call (`spans_rooted`).
-/

namespace Choreography

open PaymentService (PyText noText)

/-! ## Spans -/

/-- The ids of a span and of its trace. Neither is zero. -/
structure SpanContext where
  trace : BitVec 128
  span : BitVec 64
  trace_ne_zero : trace ≠ 0
  span_ne_zero : span ≠ 0
  deriving DecidableEq

/-- The W3C propagator. What is injected can be extracted, in all three languages. -/
structure Propagator where
  inject : SpanContext → String
  extract : String → Option SpanContext
  inject_text : ∀ c, hasNul (inject c) = false
  extract_inject : ∀ c, extract (inject c) = some c
  extract_empty : extract "" = none

theorem Propagator.inject_ne_empty (otel : Propagator) (c : SpanContext) : otel.inject c ≠ "" := by
  intro h
  have hc := otel.extract_inject c
  rw [h, otel.extract_empty] at hc
  cases hc

/-! ### The text of a trace context -/

/-- The last `k` hexadecimal digits of a number. -/
def hexText : ℕ → ℕ → List Char
  | 0, _ => []
  | k + 1, n => hexText k (n / 16) ++ [hexChar (n % 16)]

def hexValue (cs : List Char) : Option ℕ :=
  cs.foldlM (fun n c => (hexDigit? c).map (16 * n + ·)) 0

theorem length_hexText (k n : ℕ) : (hexText k n).length = k := by
  induction k generalizing n with
  | zero => rfl
  | succ k ih => simp [hexText, ih]

theorem nul_notMem_hexText (k n : ℕ) : '\x00' ∉ hexText k n := by
  induction k generalizing n with
  | zero => exact List.not_mem_nil
  | succ k ih =>
    rw [hexText, List.mem_append, List.mem_singleton]
    rintro (hmem | heq)
    · exact ih _ hmem
    · exact nul_ne_hexChar (n % 16) (Nat.mod_lt n (by decide)) heq

theorem hexDigit?_hexChar {n : ℕ} (h : n < 16) : hexDigit? (hexChar n) = some n := by
  interval_cases n <;> rfl

theorem hexValue_hexText {k n : ℕ} (h : n < 16 ^ k) : hexValue (hexText k n) = some n := by
  induction k generalizing n with
  | zero =>
    obtain rfl : n = 0 := by omega
    rfl
  | succ k ih =>
    have hdiv : n / 16 < 16 ^ k := Nat.div_lt_of_lt_mul (by rwa [pow_succ'] at h)
    have hdigit := hexDigit?_hexChar (Nat.mod_lt n (by omega : 0 < 16))
    have hsplit : 16 * (n / 16) + n % 16 = n := Nat.div_add_mod n 16
    have hvalue := ih hdiv
    rw [hexValue] at hvalue ⊢
    simp [hexText, List.foldlM_append, hvalue, hdigit, hsplit]

/-- The `traceparent` of a sampled span : version, trace id, span id and flags. -/
def injectText (c : SpanContext) : List Char :=
  '0' :: '0' :: '-' :: (hexText 32 c.trace.toNat ++ '-' :: (hexText 16 c.span.toNat ++
    ['-', '0', '1']))

/-- The ids of the text, which are not zero. -/
def contextOf (trace span : ℕ) : Option SpanContext :=
  if h : BitVec.ofNat 128 trace ≠ 0 ∧ BitVec.ofNat 64 span ≠ 0 then
    some ⟨BitVec.ofNat 128 trace, BitVec.ofNat 64 span, h.1, h.2⟩
  else none

def extractText : List Char → Option SpanContext
  | '0' :: '0' :: '-' :: cs =>
    match cs.drop 32 with
    | '-' :: rest =>
      match hexValue (cs.take 32), hexValue (rest.take 16) with
      | some trace, some span =>
        if (rest.drop 16).head? = some '-' ∧ rest.length = 19 then contextOf trace span else none
      | _, _ => none
    | _ => none
  | _ => none

theorem extractText_injectText (c : SpanContext) : extractText (injectText c) = some c := by
  obtain ⟨trace, span, htrace, hspan⟩ := c
  have hcontext : contextOf trace.toNat span.toNat = some ⟨trace, span, htrace, hspan⟩ := by
    simp only [contextOf, BitVec.ofNat_toNat, BitVec.setWidth_eq]
    exact dif_pos ⟨htrace, hspan⟩
  have htake : ∀ (k n : ℕ) (cs : List Char), (hexText k n ++ cs).take k = hexText k n := by
    intro k n cs
    rw [List.take_append_of_le_length (length_hexText k n).ge, List.take_of_length_le
      (length_hexText k n).le]
  have hdrop : ∀ (k n : ℕ) (cs : List Char), (hexText k n ++ cs).drop k = cs := by
    intro k n cs
    rw [List.drop_append_of_le_length (length_hexText k n).ge, List.drop_of_length_le
      (length_hexText k n).le, List.nil_append]
  have hvalue : hexValue (hexText 32 trace.toNat) = some trace.toNat :=
    hexValue_hexText (by have := trace.isLt; omega)
  have hvalue' : hexValue (hexText 16 span.toNat) = some span.toNat :=
    hexValue_hexText (by have := span.isLt; omega)
  simp [extractText, injectText, hdrop, htake, hvalue, hvalue', hcontext, length_hexText]

/-- The W3C format satisfies the laws. -/
def w3c : Propagator where
  inject c := String.ofList (injectText c)
  extract s := extractText s.toList
  inject_text c := by
    rw [hasNul, String.toList_ofList, List.contains_eq_mem, decide_eq_false_iff_not]
    simp [injectText, nul_notMem_hexText]
  extract_inject c := by rw [String.toList_ofList, extractText_injectText]
  extract_empty := rfl

/-! ### Names and parents -/

/-- What a span is started for. -/
inductive SpanName
  | createOrder
  | consume (topic : Topic)
  | reserveStock
  deriving DecidableEq

structure Span where
  name : SpanName
  context : SpanContext
  parent : Option SpanContext
  deriving DecidableEq

/-- A tracer starts a child of the parent, or a new trace. -/
def startSpan (name : SpanName) (parent : Option SpanContext) (draw : SpanContext) : Span :=
  match parent with
  | none => ⟨name, draw, none⟩
  | some p => ⟨name, ⟨p.trace, draw.span, p.trace_ne_zero, draw.span_ne_zero⟩, some p⟩

variable (otel : Propagator)

/-! ## The spans of the services -/

namespace OrderService

/-- `CreateOrder` starts a trace : the server has no interceptor that would extract one. -/
def createSpan (draw : SpanContext) : Span := startSpan .createOrder none draw

/-- `HandleEvent` continues the trace of the envelope, and ignores the header. -/
def consumeSpan (topic : Topic) (env : Envelope) (draw : SpanContext) : Span :=
  startSpan (.consume topic) (otel.extract env.traceparent) draw

end OrderService

namespace PaymentService

def contextFromTraceparent (traceparent : String) : Option SpanContext :=
  if traceparent ≠ "" then otel.extract traceparent else none

/-- `handle` continues the trace of the envelope, or of the header. -/
def consumeSpan (topic : Topic) (env : Envelope) (traceparent : String) (draw : SpanContext) :
    Span :=
  startSpan (.consume topic) (contextFromTraceparent otel
    (if env.traceparent ≠ "" then env.traceparent else traceparent)) draw

/-- The metadata of `reserve_stock`. -/
def metadata (traceparent : String) : Option String :=
  if traceparent ≠ "" then some traceparent else none

end PaymentService

namespace InventoryService

/-- `obs::start_span`. -/
def startSpan (name : SpanName) (traceparent : String) (draw : SpanContext) : Span :=
  Choreography.startSpan name
    (if traceparent ≠ "" then otel.extract traceparent else none) draw

/-- `obs::inject_traceparent`, with the active span. -/
def injectTraceparent : Option SpanContext → String
  | none => ""
  | some c => otel.inject c

def traceparentOf (metadata : Option String) : String := metadata.getD ""

/-- The span of `ReserveStock`. No other is active when it starts. -/
def reserveSpan (metadata : Option String) (draw : SpanContext) : Span :=
  let traceparent := traceparentOf metadata
  startSpan otel .reserveStock
    (if traceparent = "" then injectTraceparent otel none else traceparent) draw

/-- The span of a consumed message continues the trace of the header. -/
def consumeSpan (topic : Topic) (traceparent : String) (draw : SpanContext) : Span :=
  startSpan otel (.consume topic) traceparent draw

end InventoryService

/-! ## The system with its spans -/

/-- The stamp with the trace context of a span. -/
def Stamp.withSpan (stamp : Stamp) (c : SpanContext) : Stamp :=
  { stamp with
    traceparent := otel.inject c
    text := by
      simp [stamp.hasNul_eventId, stamp.hasNul_idempotencyKey, stamp.hasNul_occurredAt,
        otel.inject_text] }

/-- The step with the trace context of a span in its stamp. -/
def Label.withSpan (c : SpanContext) : Label → Label
  | .createOrder req orderId stamp => .createOrder req orderId (stamp.withSpan otel c)
  | .orderHandle r stamp acked => .orderHandle r (stamp.withSpan otel c) acked
  | .paymentHandle r forceFailure stamp => .paymentHandle r forceFailure (stamp.withSpan otel c)
  | .serve req newId stamp => .serve req newId (stamp.withSpan otel c)
  | .inventoryHandle r stamp acked => .inventoryHandle r (stamp.withSpan otel c) acked
  | l => l

/-- The composed system, with the trace contexts on their way and the spans so far. -/
structure Traced where
  sys : System
  /-- The `out_traceparent` of the message that Payment handles. -/
  outgoing : String
  /-- The ReserveStock requests that were sent, with their metadata. -/
  sent : List (ReserveStockRequest × Option String)
  /-- The spans, the last one first. -/
  spans : List Span

/-- A step, with the ids that its span draws and the metadata of the request that is served. -/
structure TracedLabel where
  label : Label
  draw : SpanContext
  metadata : Option String

namespace Traced

/-- A new deployment, without a span. -/
def init (stock : InventoryService.Stock) : Traced := ⟨System.init stock, "", [], []⟩

/-- The span that a step starts, unless its guard fails. -/
def span? (t : Traced) (l : TracedLabel) : Option Span :=
  match l.label with
  | .createOrder req _ _ =>
    if req.sku = "" ∨ req.quantity.val ≤ 0 then none else some (OrderService.createSpan l.draw)
  | .orderHandle r _ _ =>
    if r ∈ t.sys.log ∧ r.topic ∈ OrderService.consumedTopics then
      some (OrderService.consumeSpan otel r.topic r.value l.draw)
    else none
  | .paymentHandle r _ _ =>
    if r ∈ t.sys.log ∧ r.topic ∈ PaymentService.consumedTopics ∧ t.sys.working = none then
      some (PaymentService.consumeSpan otel r.topic r.value r.traceparent l.draw)
    else none
  | .serve req _ _ =>
    if req ∈ t.sys.requests ∧ (req, l.metadata) ∈ t.sent then
      some (InventoryService.reserveSpan otel l.metadata l.draw)
    else none
  | .inventoryHandle r _ _ =>
    if r ∈ t.sys.log ∧ r.topic ∈ InventoryService.consumedTopics then
      some (InventoryService.consumeSpan otel r.topic r.traceparent l.draw)
    else none
  | _ => none

/-- One step of the system, with the context of the span that it starts in its stamp. -/
def step (py : PyText) (t : Traced) (l : TracedLabel) : Traced :=
  match l.label with
  | .createOrder .. | .orderHandle .. | .paymentHandle .. | .serve .. | .inventoryHandle .. =>
    match t.span? otel l with
    | none => t
    | some sp =>
      { t with
        sys := System.step py t.sys (l.label.withSpan otel sp.context)
        outgoing :=
          match l.label with
          | .paymentHandle .. => otel.inject sp.context
          | _ => t.outgoing
        spans := sp :: t.spans }
  | .call =>
    match t.sys.working with
    | some ⟨_, .reserve req⟩ =>
      { t with
        sys := System.step py t.sys .call
        sent := (req, PaymentService.metadata t.outgoing) :: t.sent }
    | _ => t
  | label => { t with sys := System.step py t.sys label }

end Traced

/-! ## The events that a step adds -/

namespace System

variable {s : System} {r : Record}

/-- The event belongs to a saga, and carries a trace context in its header and its body. -/
structure Carries (e : Record) (sagaId traceparent : String) : Prop where
  saga : e.value.sagaId = sagaId
  header : e.traceparent = traceparent
  body : e.value.traceparent = traceparent

/-- The event that a step adds, with the message or the request that it answers. -/
inductive Emits (s : System) : Label → Record → Prop
  | created {req : OrderService.CreateOrderRequest} {orderId : String} {stamp : Stamp} {u : Uuid}
      {e : Record} (hu : uuidIn orderId = some u) (hnew : s.order.orders.find? u = none)
      (he : Carries e orderId stamp.traceparent) : Emits s (.createOrder req orderId stamp) e
  | cancelled {r : Record} {stamp : Stamp} {acked : Bool} {e : Record} (hr : r ∈ s.log)
      (he : Carries e r.value.sagaId stamp.traceparent) : Emits s (.orderHandle r stamp acked) e
  | paid {r : Record} {forceFailure : Bool} {stamp : Stamp} {e : Record} (hr : r ∈ s.log)
      (he : Carries e r.value.sagaId stamp.traceparent) :
      Emits s (.paymentHandle r forceFailure stamp) e
  | decided {req : ReserveStockRequest} {newId : Uuid} {stamp : Stamp} {e : Record}
      (hreq : req ∈ s.requests) (he : Carries e req.sagaId stamp.traceparent) :
      Emits s (.serve req newId stamp) e

theorem committed_of_append {f f' : Facts} (svc : Service) {e : Record}
    (hsvc : f'.events svc = f.events svc ++ [e])
    (hother : ∀ svc' ≠ svc, f'.events svc' = f.events svc') (hr : f'.Committed r) :
    f.Committed r ∨ r = e := by
  obtain ⟨svc', hr⟩ := hr
  by_cases hne : svc' = svc
  · rw [hne, hsvc, List.mem_append, List.mem_singleton] at hr
    exact hr.imp_left fun hr => ⟨svc, hr⟩
  · rw [hother svc' hne] at hr
    exact Or.inl ⟨svc', hr⟩

theorem committed_order {db : OrderService.Db} {stamp : Stamp} {ob : OutboxInsert}
    (hob : insertOutbox stamp s.order.outbox ob = .ok db.outbox)
    (hr : (factsOf db s.payment s.inventory).Committed r) :
    s.facts.Committed r ∨ r = ob.record := by
  refine committed_of_append .order (eventsOf_insertOutbox hob) (fun svc hne => ?_) hr
  cases svc with
  | order => exact absurd rfl hne
  | _ => rfl

theorem committed_payment {db : PaymentService.Db} {stamp : Stamp} {ob : OutboxInsert}
    (hob : insertOutbox stamp s.payment.outbox ob = .ok db.outbox)
    (hr : (factsOf s.order db s.inventory).Committed r) :
    s.facts.Committed r ∨ r = ob.record := by
  refine committed_of_append .payment (eventsOf_insertOutbox hob) (fun svc hne => ?_) hr
  cases svc with
  | payment => exact absurd rfl hne
  | _ => rfl

theorem committed_inventory {db : InventoryService.Db} {stamp : Stamp} {ob : OutboxInsert}
    (hob : insertOutbox stamp s.inventory.outbox ob = .ok db.outbox)
    (hr : (factsOf s.order s.payment db).Committed r) :
    s.facts.Committed r ∨ r = ob.record := by
  refine committed_of_append .inventory (eventsOf_insertOutbox hob)
    (fun svc hne => ?_) hr
  cases svc with
  | inventory => exact absurd rfl hne
  | _ => rfl

/-- What Order's handler adds. -/
theorem committed_orderHandle (h : s.Inv) (py : PyText) (r₀ : Record) (stamp : Stamp)
    (acked : Bool) (hr : (step py s (.orderHandle r₀ stamp acked)).facts.Committed r) :
    s.facts.Committed r ∨ s.Emits (.orderHandle r₀ stamp acked) r := by
  rcases step_orderHandle h py r₀ stamp acked with heq | ⟨-, heq⟩ | ⟨db, -, hdb, -, hp, -, heq⟩ <;>
    rw [heq] at hr
  · exact Or.inl hr
  · exact Or.inl hr
  · have ht : r₀.topic ∈ OrderService.consumedTopics := hp.topic
    obtain ⟨t, htr⟩ : ∃ t, OrderService.topicTrigger r₀.topic = some t := by
      cases hrt : r₀.topic <;> simp_all [OrderService.consumedTopics, OrderService.topicTrigger]
    have hr' : (factsOf db s.payment s.inventory).Committed r := hr
    have hsame : db = s.order → s.facts.Committed r := fun heq => by rwa [heq] at hr'
    rcases OrderService.handleEvent_cases s.order htr r₀.value stamp with ⟨heq, -⟩ | ⟨heq, -⟩ |
      ⟨heq, -⟩ | ⟨-, u, o, ha⟩
    · exact Or.inl (hsame (hdb.symm.trans heq))
    · exact Or.inl (hsame (hdb.symm.trans heq))
    · exact Or.inl (hsame (hdb.symm.trans heq))
    · rw [hdb] at ha
      have hob := ha.outbox
      split_ifs at hob
      · refine (committed_order hob hr').imp_right fun he => ?_
        rw [he]
        exact .cancelled hp.log ⟨rfl, rfl, rfl⟩
      · obtain ⟨svc, hmem⟩ := hr'
        refine Or.inl ⟨svc, ?_⟩
        cases svc with
        | order =>
          have hmem' : r ∈ eventsOf db.outbox := hmem
          rwa [hob] at hmem'
        | payment => exact hmem
        | inventory => exact hmem

/-- What Payment's handler adds. -/
theorem committed_paymentHandle (h : s.Inv) (py : PyText) (r₀ : Record) (forceFailure : Bool)
    (stamp : Stamp)
    (hr : (step py s (.paymentHandle r₀ forceFailure stamp)).facts.Committed r) :
    s.facts.Committed r ∨ s.Emits (.paymentHandle r₀ forceFailure stamp) r := by
  rcases step_paymentHandle h py r₀ forceFailure stamp with heq | ⟨-, -, heq⟩ |
    ⟨hd, -, -, hok, hp, -, heq⟩ <;> rw [heq] at hr
  · exact Or.inl hr
  · exact Or.inl hr
  · have hr' : (factsOf s.order hd.db s.inventory).Committed r := hr
    have ht : r₀.topic ∈ PaymentService.consumedTopics := hp.topic
    have htopic : r₀.topic = .orderCreated ∨ r₀.topic = .inventoryReservationFailed := by
      simpa [PaymentService.consumedTopics] using ht
    have hadds : ∀ ob : OutboxInsert, Carries ob.record r₀.value.sagaId stamp.traceparent →
        insertOutbox stamp s.payment.outbox ob = .ok hd.db.outbox →
        s.facts.Committed r ∨ s.Emits (.paymentHandle r₀ forceFailure stamp) r := by
      intro ob hc hins
      refine (committed_payment hins hr').imp_right fun he => ?_
      rw [he]
      exact .paid hp.log hc
    rcases htopic with htopic | htopic <;> rw [htopic, PaymentService.handle] at hok
    · obtain ⟨amount, sku, quantity, hok⟩ := PaymentService.handleOrderCreated_parsed_eq_ok hok
      obtain ⟨u, -, ⟨hdb, -⟩ | ⟨q, -, ⟨reason, hc, -⟩ | ⟨hc, -⟩⟩⟩ :=
        PaymentService.charge_cases hok
      · rw [hdb] at hr'
        exact Or.inl hr'
      · exact hadds _ ⟨rfl, rfl, rfl⟩ hc.outbox
      · exact hadds _ ⟨rfl, rfl, rfl⟩ hc.outbox
    · obtain ⟨-, ⟨hdb, -⟩ | ⟨u, amount, -, hc, -⟩⟩ :=
        PaymentService.handleCompensation_parsed_cases hok
      · rw [hdb] at hr'
        exact Or.inl hr'
      · have htables := hc.tables
        split_ifs at htables
        · exact hadds _ ⟨rfl, rfl, rfl⟩ htables.2
        · obtain ⟨svc, hmem⟩ := hr'
          refine Or.inl ⟨svc, ?_⟩
          cases svc with
          | payment =>
            have hmem' : r ∈ eventsOf hd.db.outbox := hmem
            rwa [htables.2] at hmem'
          | order => exact hmem
          | inventory => exact hmem

/-- What ReserveStock adds. -/
theorem committed_serve (h : s.Inv) (py : PyText) (req : ReserveStockRequest) (newId : Uuid)
    (stamp : Stamp) (hr : (step py s (.serve req newId stamp)).facts.Committed r) :
    s.facts.Committed r ∨ s.Emits (.serve req newId stamp) r := by
  rcases step_serve h py req newId stamp with heq | ⟨-, -, -, heq⟩ |
    ⟨r₀, db, hreq, -, -, ⟨result, hok⟩, -, -, heq⟩ <;> rw [heq] at hr
  · exact Or.inl hr
  · exact Or.inl hr
  · have hr' : (factsOf s.order s.payment db).Committed r := hr
    obtain ⟨hdb, -⟩ | ⟨-, -, -, href⟩ | ⟨-, -, -, u, -, -, ht⟩ :=
      InventoryService.reserveStock_cases hok
    · rw [hdb] at hr'
      exact Or.inl hr'
    · refine (committed_inventory href.outbox hr').imp_right fun he => ?_
      rw [he]
      exact .decided hreq ⟨rfl, rfl, rfl⟩
    · refine (committed_inventory ht.outbox hr').imp_right fun he => ?_
      rw [he]
      exact .decided hreq ⟨rfl, rfl, rfl⟩

/-- Relays, calls and offsets leave the facts alone. -/
theorem facts_of_commits_eq_none (py : PyText) (s : System) {l : Label} (hl : l.commits = none) :
    (step py s l).facts = s.facts := by
  cases l with
  | publish svc id =>
    rcases step_publish py s svc id with heq | ⟨row, -, heq⟩ <;> rw [heq]
    rfl
  | markPublished svc id => exact facts_mark py s (Or.inl rfl)
  | markFailed svc id => exact facts_mark py s (Or.inr rfl)
  | call =>
    rcases step_call py s with heq | ⟨r, req, -, heq⟩ <;> rw [heq]
    rfl
  | reply =>
    rcases step_reply py s with heq | ⟨r, req, -, -, heq⟩ <;> rw [heq]
    rfl
  | fail =>
    rcases step_fail py s with heq | ⟨r, req, -, heq⟩ <;> rw [heq]
    rfl
  | commitOffset =>
    rcases step_commitOffset py s with heq | ⟨r, -, heq⟩ <;> rw [heq]
    rfl
  | drop req => rfl
  | crash => rfl
  | _ => cases hl

/-- Every event was there, or is the one that the step adds. -/
theorem Inv.committed_step (h : s.Inv) (py : PyText) (l : Label)
    (hr : (System.step py s l).facts.Committed r) : s.facts.Committed r ∨ s.Emits l r := by
  by_cases hl : l.commits = none
  · rw [facts_of_commits_eq_none py s hl] at hr
    exact Or.inl hr
  · cases l with
    | createOrder req orderId stamp =>
      rcases step_createOrder py s req orderId stamp with heq | ⟨db, -, hok, heq⟩ <;>
        rw [heq] at hr
      · exact Or.inl hr
      · obtain ⟨hpos, u, hu, hins, -, hob⟩ := OrderService.createOrder_eq_ok hok
        refine (committed_order hob hr).imp_right fun he => ?_
        rw [he]
        exact .created hu (Table.insert_eq_some.mp hins).1 ⟨rfl, rfl, rfl⟩
    | orderHandle r₀ stamp acked => exact committed_orderHandle h py r₀ stamp acked hr
    | paymentHandle r₀ forceFailure stamp =>
      exact committed_paymentHandle h py r₀ forceFailure stamp hr
    | serve req newId stamp => exact committed_serve h py req newId stamp hr
    | inventoryHandle r₀ stamp acked =>
      rcases step_inventoryHandle h py r₀ stamp acked with heq | ⟨-, heq⟩ |
        ⟨outcome, db, -, -, hp, -, -, heq⟩ <;> rw [heq] at hr
      · exact Or.inl hr
      · exact Or.inl hr
      · -- a cancellation only marks its key
        have hevents : (factsOf s.order s.payment db).events = s.facts.events := by
          have hstep := hp.step
          generalize factsOf s.order s.payment db = f' at hstep
          cases hstep
          rfl
        obtain ⟨svc, hmem⟩ := hr
        have hmem' : r ∈ (factsOf s.order s.payment db).events svc := hmem
        rw [hevents] at hmem'
        exact Or.inl ⟨svc, hmem'⟩
    | _ => exact absurd rfl hl

/-- Payment comes to a call of ReserveStock by handling its message. -/
theorem working_reserve (py : PyText) (s : System) (l : Label) {req : ReserveStockRequest}
    (hw : (step py s l).working = some ⟨r, .reserve req⟩) :
    s.working = some ⟨r, .reserve req⟩ ∨
      ∃ forceFailure stamp, l = .paymentHandle r forceFailure stamp := by
  cases l with
  | paymentHandle r₀ forceFailure stamp =>
    simp only [step] at hw
    split_ifs at hw with hg
    · split at hw
      next hd _ =>
        refine Or.inr ⟨forceFailure, stamp, ?_⟩
        have hr : r₀ = r := by
          have hgo : goOn r₀ hd.next = some ⟨r, .reserve req⟩ := hw
          cases hn : hd.next with
          | done => rw [hn] at hgo; cases hgo
          | reserve req' => rw [hn] at hgo; cases hgo; rfl
          | raise => rw [hn] at hgo; cases hgo
        rw [hr]
      · exact Or.inl hw
    · exact Or.inl hw
  | call =>
    rcases step_call py s with heq | ⟨r₀, req₀, -, heq⟩ <;> rw [heq] at hw
    · exact Or.inl hw
    · cases hw
  | reply =>
    rcases step_reply py s with heq | ⟨r₀, req₀, -, -, heq⟩ <;> rw [heq] at hw
    · exact Or.inl hw
    · cases hw
  | fail =>
    rcases step_fail py s with heq | ⟨r₀, req₀, -, heq⟩ <;> rw [heq] at hw
    · exact Or.inl hw
    · cases hw
  | commitOffset =>
    rcases step_commitOffset py s with heq | ⟨r₀, -, heq⟩ <;> rw [heq] at hw
    · exact Or.inl hw
    · cases hw
  | crash => cases hw
  | serve req₀ newId stamp =>
    have hsame : (step py s (.serve req₀ newId stamp)).working = s.working := by
      simp only [step]
      split_ifs
      · split <;> rfl
      · rfl
    exact Or.inl (hsame ▸ hw)
  | drop req₀ => exact Or.inl hw
  | _ =>
    rw [(step_calls py s rfl).1] at hw
    exact Or.inl hw

/-- A saga with an event has an order. -/
theorem Inv.order_of_committed (h : s.Inv) (hr : s.facts.Committed r) {u : Uuid}
    (hu : r.saga = some u) : s.order.orders.find? u ≠ none := by
  have hc := h.consistent
  have horder : (s.facts.saga u).order ≠ none := by
    intro ho
    have hmem := hc.mem_topics (hc.mem_events hr) hu
    have hpay : (s.facts.saga u).payment = none := by
      by_contra hp
      exact (hc.inv u).created hp ho
    have hv : (s.facts.saga u).verdict = none := by
      by_contra hv
      have hcap := (hc.inv u).captured hv
      simp [Saga.Published, hpay] at hcap
    cases ht : r.topic.service <;> rw [ht] at hmem <;> simp [Saga.topics, ho, hpay, hv] at hmem
  intro hnone
  exact horder (by simp [Facts.saga, facts, factsOf, hnone])

end System

/-! ## One trace for each saga -/

namespace Traced

variable {otel} {t : Traced} {traceOf : Uuid → BitVec 128}

/-- A span starts a trace for a CreateOrder call, or continues the trace of an earlier span. -/
def Placed (spans : List Span) (sp : Span) : Prop :=
  (sp.name = .createOrder ∧ sp.parent = none) ∨
    ∃ p ∈ spans, sp.parent = some p.context ∧ sp.context.trace = p.context.trace

/-- Every span is placed below those that were started before it. -/
def Forest : List Span → Prop
  | [] => True
  | sp :: spans => Forest spans ∧ Placed spans sp

/-- The trace context of a span of the saga. -/
def Context (otel : Propagator) (t : Traced) (traceOf : Uuid → BitVec 128) (saga : Option Uuid)
    (traceparent : String) : Prop :=
  ∃ sp ∈ t.spans, traceparent = otel.inject sp.context ∧
    ∀ u, saga = some u → sp.context.trace = traceOf u

/-- What every reachable state keeps, with the trace of each saga. -/
structure Inv (otel : Propagator) (t : Traced) (traceOf : Uuid → BitVec 128) : Prop where
  sys : t.sys.Inv
  forest : Forest t.spans
  events : ∀ r, t.sys.facts.Committed r →
    r.traceparent = r.value.traceparent ∧ Context otel t traceOf r.saga r.value.traceparent
  outgoing : ∀ r req, t.sys.working = some ⟨r, .reserve req⟩ →
    Context otel t traceOf r.saga t.outgoing
  sent : ∀ req metadata, (req, metadata) ∈ t.sent → ∃ r, t.sys.facts.Calls r req ∧
    ∃ traceparent, metadata = some traceparent ∧ Context otel t traceOf r.saga traceparent

theorem Context.mono {t' : Traced} {saga : Option Uuid} {traceparent : String}
    (h : Context otel t traceOf saga traceparent) (hspans : t.spans ⊆ t'.spans) :
    Context otel t' traceOf saga traceparent := by
  obtain ⟨sp, hsp, htp, htrace⟩ := h
  exact ⟨sp, hspans hsp, htp, htrace⟩

/-- A span that continues a context of the saga. -/
theorem Context.child {saga : Option Uuid} {traceparent : String}
    (h : Context otel t traceOf saga traceparent) (name : SpanName) (draw : SpanContext) :
    otel.extract traceparent ≠ none ∧
      Placed t.spans (startSpan name (otel.extract traceparent) draw) ∧
      ∀ u, saga = some u →
        (startSpan name (otel.extract traceparent) draw).context.trace = traceOf u := by
  obtain ⟨p, hp, rfl, htrace⟩ := h
  rw [otel.extract_inject]
  exact ⟨Option.some_ne_none _, Or.inr ⟨p, hp, rfl, rfl⟩, htrace⟩

/-- CreateOrder gives the trace that it starts to the saga, if the order is new. -/
def assign (t : Traced) (l : TracedLabel) (traceOf : Uuid → BitVec 128) : Uuid → BitVec 128 :=
  match l.label with
  | .createOrder _ orderId _ => fun u =>
    if uuidIn orderId = some u ∧ t.sys.order.orders.find? u = none then l.draw.trace
    else traceOf u
  | _ => traceOf

theorem inv_init (stock : InventoryService.Stock) (traceOf : Uuid → BitVec 128) :
    Inv otel (init stock) traceOf where
  sys := System.inv_init stock
  forest := trivial
  events r hr := by
    obtain ⟨svc, hr⟩ := hr
    cases svc <;> cases hr
  outgoing r req hw := by cases hw
  sent req metadata hmem := by cases hmem

namespace Inv

/-- Sagas that have no order yet can be given other traces. -/
theorem retrace (h : Inv otel t traceOf) {traceOf' : Uuid → BitVec 128}
    (hkeep : ∀ u, t.sys.order.orders.find? u ≠ none → traceOf' u = traceOf u) :
    Inv otel t traceOf' := by
  have hcontext : ∀ {r : Record} {traceparent : String}, t.sys.facts.Committed r →
      Context otel t traceOf r.saga traceparent → Context otel t traceOf' r.saga traceparent := by
    rintro r traceparent hr ⟨sp, hsp, htp, htrace⟩
    refine ⟨sp, hsp, htp, fun v hv => ?_⟩
    rw [hkeep v (h.sys.order_of_committed hr hv)]
    exact htrace v hv
  refine ⟨h.sys, h.forest, fun r hr => ⟨(h.events r hr).1, hcontext hr (h.events r hr).2⟩,
    fun r req hw => ?_, fun req metadata hmem => ?_⟩
  · have hcalls := (h.sys.control.stage r req (Or.inl hw)).1
    exact hcontext ⟨.order, hcalls.committed⟩ (h.outgoing r req hw)
  · obtain ⟨r, hcalls, traceparent, hmeta, hc⟩ := h.sent req metadata hmem
    exact ⟨r, hcalls, traceparent, hmeta, hcontext ⟨.order, hcalls.committed⟩ hc⟩

/-- A step of a handler, with its span. -/
theorem spans (h : Inv otel t traceOf) (py : PyText) {l : Label} {sp : Span} {outgoing : String}
    (hplaced : Placed t.spans sp)
    (hemits : ∀ e, t.sys.Emits l e → e.traceparent = otel.inject sp.context ∧
      e.value.traceparent = otel.inject sp.context ∧
      ∀ u, e.saga = some u → sp.context.trace = traceOf u)
    (hout : ∀ r req, (System.step py t.sys l).working = some ⟨r, .reserve req⟩ →
      t.sys.working = some ⟨r, .reserve req⟩ ∧ outgoing = t.outgoing ∨
        outgoing = otel.inject sp.context ∧ ∀ u, r.saga = some u → sp.context.trace = traceOf u) :
    Inv otel { t with
      sys := System.step py t.sys l, outgoing := outgoing, spans := sp :: t.spans } traceOf := by
  refine ⟨h.sys.step py l, ⟨h.forest, hplaced⟩, fun r hr => ?_, fun r req hw => ?_,
    fun req metadata hmem => ?_⟩
  · rcases h.sys.committed_step py l hr with hr | he
    · exact ⟨(h.events r hr).1, (h.events r hr).2.mono (List.subset_cons_self _ _)⟩
    · obtain ⟨hheader, hbody, htrace⟩ := hemits r he
      exact ⟨hheader.trans hbody.symm, sp, List.mem_cons_self, hbody, htrace⟩
  · rcases hout r req hw with ⟨hw', hsame⟩ | ⟨hinject, htrace⟩
    · rw [hsame]
      exact (h.outgoing r req hw').mono (List.subset_cons_self _ _)
    · exact ⟨sp, List.mem_cons_self, hinject, htrace⟩
  · obtain ⟨r, hcalls, traceparent, hmeta, hcontext⟩ := h.sent req metadata hmem
    exact ⟨r, (h.sys.step_extends py l).calls hcalls, traceparent, hmeta,
      hcontext.mono (List.subset_cons_self _ _)⟩

/-- A step without a span that commits nothing. -/
theorem silent (h : Inv otel t traceOf) (py : PyText) {l : Label} (hl : l.commits = none) :
    Inv otel { t with sys := System.step py t.sys l } traceOf := by
  have hfacts := System.facts_of_commits_eq_none py t.sys hl
  refine ⟨h.sys.step py l, h.forest, fun r hr => ?_, fun r req hw => ?_,
    fun req metadata hmem => ?_⟩
  · exact h.events r (hfacts ▸ hr)
  · obtain hw' | ⟨forceFailure, stamp, rfl⟩ := System.working_reserve py t.sys l hw
    · exact h.outgoing r req hw'
    · cases hl
  · obtain ⟨r, hcalls, hrest⟩ := h.sent req metadata hmem
    exact ⟨r, hfacts.symm ▸ hcalls, hrest⟩

/-- A handler that continues the trace of a message or of a request. -/
theorem continues (h : Inv otel t traceOf) (py : PyText) {l : Label} {saga : Option Uuid}
    {traceparent outgoing : String} (hc : Context otel t traceOf saga traceparent)
    (name : SpanName) (draw : SpanContext)
    (hemits : ∀ e, t.sys.Emits l e → ∃ sagaId, uuidIn sagaId = saga ∧ System.Carries e sagaId
      (otel.inject (startSpan name (otel.extract traceparent) draw).context))
    (hout : ∀ r req, (System.step py t.sys l).working = some ⟨r, .reserve req⟩ →
      t.sys.working = some ⟨r, .reserve req⟩ ∧ outgoing = t.outgoing ∨ r.saga = saga ∧
        outgoing = otel.inject (startSpan name (otel.extract traceparent) draw).context) :
    Inv otel { t with
      sys := System.step py t.sys l
      outgoing := outgoing
      spans := startSpan name (otel.extract traceparent) draw :: t.spans } traceOf := by
  obtain ⟨-, hplaced, htrace⟩ := hc.child name draw
  refine h.spans py hplaced (fun e he => ?_) fun r req hw => ?_
  · obtain ⟨sagaId, hsaga, hcarries⟩ := hemits e he
    refine ⟨hcarries.header, hcarries.body, fun u hu => htrace u ?_⟩
    rw [← hsaga, ← hcarries.saga]
    exact hu
  · refine (hout r req hw).imp_right fun ⟨hr, hinject⟩ => ⟨hinject, fun u hu => htrace u ?_⟩
    rw [← hr]
    exact hu

theorem context_ne_empty {saga : Option Uuid} {traceparent : String}
    (h : Context otel t traceOf saga traceparent) : traceparent ≠ "" := by
  obtain ⟨sp, -, rfl, -⟩ := h
  exact otel.inject_ne_empty sp.context

/-- Only Payment's handler comes to a call of ReserveStock. -/
theorem working_of_ne {py : PyText} {l : Label} (hl : l.commits ≠ some .payment) (r : Record)
    (req : ReserveStockRequest)
    (hw : (System.step py t.sys l).working = some ⟨r, .reserve req⟩) :
    t.sys.working = some ⟨r, .reserve req⟩ := by
  obtain hw | ⟨forceFailure, stamp, rfl⟩ := System.working_reserve py t.sys l hw
  · exact hw
  · exact absurd rfl hl

theorem step_orderHandle (h : Inv otel t traceOf) (py : PyText) (r : Record) (stamp : Stamp)
    (acked : Bool) (draw : SpanContext) (metadata : Option String) :
    Inv otel (step otel py t ⟨.orderHandle r stamp acked, draw, metadata⟩) traceOf := by
  simp only [step, span?]
  split_ifs with hg
  · refine h.continues py (h.events r (h.sys.control.log r hg.1)).2 _ _ (fun e he => ?_)
      fun r' req hw =>
        Or.inl ⟨working_of_ne (by simp [Label.withSpan, Label.commits]) r' req hw, rfl⟩
    cases he with
    | cancelled _ hcarries => exact ⟨r.value.sagaId, rfl, hcarries⟩
  · exact h

theorem step_paymentHandle (h : Inv otel t traceOf) (py : PyText) (r : Record)
    (forceFailure : Bool) (stamp : Stamp) (draw : SpanContext) (metadata : Option String) :
    Inv otel (step otel py t ⟨.paymentHandle r forceFailure stamp, draw, metadata⟩) traceOf := by
  simp only [step, span?]
  split_ifs with hg
  · have hc := (h.events r (h.sys.control.log r hg.1)).2
    have hspan : PaymentService.consumeSpan otel r.topic r.value r.traceparent draw =
        startSpan (.consume r.topic) (otel.extract r.value.traceparent) draw := by
      rw [PaymentService.consumeSpan, if_pos (context_ne_empty hc),
        PaymentService.contextFromTraceparent, if_pos (context_ne_empty hc)]
    rw [hspan]
    refine h.continues py hc _ _ (fun e he => ?_) fun r' req hw => ?_
    · cases he with
      | paid _ hcarries => exact ⟨r.value.sagaId, rfl, hcarries⟩
    · obtain hw | ⟨forceFailure', stamp', heq⟩ := System.working_reserve py t.sys _ hw
      · rw [hg.2.2] at hw
        cases hw
      · cases heq
        exact Or.inr ⟨rfl, rfl⟩
  · exact h

theorem step_serve (h : Inv otel t traceOf) (py : PyText) (req : ReserveStockRequest)
    (newId : Uuid) (stamp : Stamp) (draw : SpanContext) (metadata : Option String) :
    Inv otel (step otel py t ⟨.serve req newId stamp, draw, metadata⟩) traceOf := by
  simp only [step, span?]
  split_ifs with hg
  · obtain ⟨r, hcalls, traceparent, rfl, hc⟩ := h.sent req metadata hg.2
    have hne := context_ne_empty hc
    have hspan : InventoryService.reserveSpan otel (some traceparent) draw =
        startSpan .reserveStock (otel.extract traceparent) draw := by
      simp [InventoryService.reserveSpan, InventoryService.traceparentOf,
        InventoryService.startSpan, hne]
    rw [hspan]
    refine h.continues py hc _ _ (fun e he => ?_)
      fun r' req hw =>
        Or.inl ⟨working_of_ne (by simp [Label.withSpan, Label.commits]) r' req hw, rfl⟩
    cases he with
    | decided _ hcarries => exact ⟨req.sagaId, hcalls.saga_eq, hcarries⟩
  · exact h

theorem step_inventoryHandle (h : Inv otel t traceOf) (py : PyText) (r : Record) (stamp : Stamp)
    (acked : Bool) (draw : SpanContext) (metadata : Option String) :
    Inv otel (step otel py t ⟨.inventoryHandle r stamp acked, draw, metadata⟩) traceOf := by
  simp only [step, span?]
  split_ifs with hg
  · obtain ⟨hheader, hc⟩ := h.events r (h.sys.control.log r hg.1)
    have hspan : InventoryService.consumeSpan otel r.topic r.traceparent draw =
        startSpan (.consume r.topic) (otel.extract r.value.traceparent) draw := by
      simp [InventoryService.consumeSpan, InventoryService.startSpan, hheader,
        context_ne_empty hc]
    rw [hspan]
    refine h.continues py hc _ _ (fun e he => ?_)
      fun r' req hw =>
        Or.inl ⟨working_of_ne (by simp [Label.withSpan, Label.commits]) r' req hw, rfl⟩
    cases he
  · exact h

theorem step_call (h : Inv otel t traceOf) (py : PyText) (draw : SpanContext)
    (metadata : Option String) : Inv otel (step otel py t ⟨.call, draw, metadata⟩) traceOf := by
  simp only [step]
  split
  next r req hw =>
    have hsilent := h.silent py (l := .call) rfl
    refine ⟨hsilent.sys, hsilent.forest, hsilent.events, hsilent.outgoing,
      fun req' metadata' hmem => ?_⟩
    obtain heq | hmem := List.mem_cons.mp hmem
    · cases heq
      have hc := h.outgoing r req hw
      have hcalls := (h.sys.control.stage r req (Or.inl hw)).1
      have hfacts := System.facts_of_commits_eq_none py t.sys (l := .call) rfl
      refine ⟨r, hfacts.symm ▸ hcalls, t.outgoing, ?_, hc⟩
      rw [PaymentService.metadata, if_pos (context_ne_empty hc)]
    · exact hsilent.sent req' metadata' hmem
  · exact h

theorem step_createOrder (h : Inv otel t traceOf) (py : PyText)
    (req : OrderService.CreateOrderRequest) (orderId : String) (stamp : Stamp)
    (draw : SpanContext) (metadata : Option String)
    (htrace : ∀ u, uuidIn orderId = some u → t.sys.order.orders.find? u = none →
      draw.trace = traceOf u) :
    Inv otel (step otel py t ⟨.createOrder req orderId stamp, draw, metadata⟩) traceOf := by
  simp only [step, span?]
  split_ifs with hg
  · exact h
  · refine h.spans py (Or.inl ⟨rfl, rfl⟩) (fun e he => ?_) fun r' req' hw =>
      Or.inl ⟨working_of_ne (by simp [Label.withSpan, Label.commits]) r' req' hw, rfl⟩
    cases he with
    | created hu hnew hcarries =>
      refine ⟨hcarries.header, hcarries.body, fun v hv => ?_⟩
      have hv' : uuidIn orderId = some v := hcarries.saga ▸ hv
      cases hu.symm.trans hv'
      exact htrace _ hu hnew

/-- A step keeps the traces of the sagas, and gives one to a new saga. -/
theorem step (h : Inv otel t traceOf) (py : PyText) (l : TracedLabel) :
    Inv otel (Traced.step otel py t l) (assign t l traceOf) := by
  obtain ⟨label, draw, metadata⟩ := l
  cases label with
  | createOrder req orderId stamp =>
    refine (h.retrace fun u hu => ?_).step_createOrder py req orderId stamp draw metadata
      fun u hu hnone => ?_
    · exact if_neg fun hnew => hu hnew.2
    · exact (if_pos ⟨hu, hnone⟩).symm
  | orderHandle r stamp acked => exact h.step_orderHandle py r stamp acked draw metadata
  | paymentHandle r forceFailure stamp =>
    exact h.step_paymentHandle py r forceFailure stamp draw metadata
  | serve req newId stamp => exact h.step_serve py req newId stamp draw metadata
  | inventoryHandle r stamp acked => exact h.step_inventoryHandle py r stamp acked draw metadata
  | call => exact h.step_call py draw metadata
  | _ => exact h.silent py rfl

end Inv

theorem inv_run (py : PyText) (stock : InventoryService.Stock) (ls : List TracedLabel) :
    ∃ traceOf, Inv otel (runFrom (step otel py) (init stock) ls) traceOf := by
  refine invariant_runFrom (I := fun t => ∃ traceOf, Inv otel t traceOf) ?_ ls
    ⟨fun _ => 0, inv_init stock _⟩
  rintro t l ⟨traceOf, h⟩
  exact ⟨_, h.step py l⟩

/-- The message carries a trace context of the trace, the same in its header and its body. -/
def InTrace (otel : Propagator) (id : BitVec 128) (r : Record) : Prop :=
  ∃ c, otel.extract r.traceparent = some c ∧ otel.extract r.value.traceparent = some c ∧
    c.trace = id

/-- In every reachable state, all events of a saga are in one trace, and so are the requests
that Payment sent for it. -/
theorem one_trace (otel : Propagator) (py : PyText) (stock : InventoryService.Stock)
    (ls : List TracedLabel) :
    ∃ traceOf : Uuid → BitVec 128,
      (∀ svc, ∀ r ∈ eventsOf ((runFrom (step otel py) (init stock) ls).sys.outbox svc),
        ∃ u, r.saga = some u ∧ InTrace otel (traceOf u) r) ∧
      ∀ p ∈ (runFrom (step otel py) (init stock) ls).sent,
        ∃ u traceparent c, uuidIn p.1.sagaId = some u ∧ p.2 = some traceparent ∧
          otel.extract traceparent = some c ∧ c.trace = traceOf u := by
  obtain ⟨traceOf, h⟩ := inv_run py stock ls
  refine ⟨traceOf, fun svc r hr => ?_, fun p hp => ?_⟩
  · have hcommitted := (⟨svc, System.mem_events_iff.mpr hr⟩ :
      (runFrom (step otel py) (init stock) ls).sys.facts.Committed r)
    obtain ⟨u, hu⟩ := h.sys.consistent.saga r hcommitted
    obtain ⟨hheader, sp, -, hbody, htrace⟩ := h.events r hcommitted
    refine ⟨u, hu, sp.context, ?_, ?_, htrace u hu⟩
    · rw [hheader, hbody, otel.extract_inject]
    · rw [hbody, otel.extract_inject]
  · obtain ⟨r, hcalls, traceparent, hmeta, sp, -, rfl, htrace⟩ := h.sent p.1 p.2 hp
    obtain ⟨u, o, hu, -⟩ := hcalls.request
    exact ⟨u, _, sp.context, hcalls.saga_eq.trans hu, hmeta, otel.extract_inject _, htrace u hu⟩

/-! ## The spans of a trace -/

/-- The span continues the context of the other, which was started before it. -/
def ChildOf (spans : List Span) (sp p : Span) : Prop :=
  (∃ newer older, spans = newer ++ sp :: older ∧ p ∈ older) ∧ sp.parent = some p.context

/-- A span that is started later leaves the children of a span alone. -/
theorem ChildOf.cons {spans : List Span} {sp p : Span} (h : ChildOf spans sp p) (new : Span) :
    ChildOf (new :: spans) sp p := by
  obtain ⟨⟨newer, older, rfl, hp⟩, hparent⟩ := h
  exact ⟨⟨new :: newer, older, rfl, hp⟩, hparent⟩

/-- Every span descends from one of a CreateOrder call, within its trace. -/
theorem Forest.rooted {spans : List Span} (h : Forest spans) :
    ∀ sp ∈ spans, ∃ root ∈ spans, root.name = .createOrder ∧ root.parent = none ∧
      root.context.trace = sp.context.trace ∧ Relation.ReflTransGen (ChildOf spans) sp root := by
  induction spans with
  | nil => exact fun sp hsp => absurd hsp List.not_mem_nil
  | cons sp₀ spans ih =>
    obtain ⟨hforest, hplaced⟩ := h
    have hmono : ∀ {sp root : Span}, Relation.ReflTransGen (ChildOf spans) sp root →
        Relation.ReflTransGen (ChildOf (sp₀ :: spans)) sp root :=
      fun hchain => hchain.lift id fun _ _ hchild => hchild.cons sp₀
    intro sp hsp
    obtain rfl | hsp := List.mem_cons.mp hsp
    · obtain ⟨hname, hparent⟩ | ⟨p, hp, hparent, htrace⟩ := hplaced
      · exact ⟨sp, List.mem_cons_self, hname, hparent, rfl, .refl⟩
      · obtain ⟨root, hroot, hname, hnone, hrootTrace, hchain⟩ := ih hforest p hp
        exact ⟨root, List.mem_cons_of_mem _ hroot, hname, hnone, hrootTrace.trans htrace.symm,
          .head ⟨⟨[], spans, rfl, hp⟩, hparent⟩ (hmono hchain)⟩
    · obtain ⟨root, hroot, hname, hnone, htrace, hchain⟩ := ih hforest sp hsp
      exact ⟨root, List.mem_cons_of_mem _ hroot, hname, hnone, htrace, hmono hchain⟩

/-- In every run, no handler starts a trace of its own : each span descends, through spans that
were started before it, from the span of a CreateOrder call of its trace. -/
theorem spans_rooted (otel : Propagator) (py : PyText) (stock : InventoryService.Stock)
    (ls : List TracedLabel) (sp : Span)
    (hsp : sp ∈ (runFrom (step otel py) (init stock) ls).spans) :
    ∃ root ∈ (runFrom (step otel py) (init stock) ls).spans,
      root.name = .createOrder ∧ root.parent = none ∧
      root.context.trace = sp.context.trace ∧
      Relation.ReflTransGen (ChildOf (runFrom (step otel py) (init stock) ls).spans) sp root := by
  obtain ⟨traceOf, h⟩ := inv_run py stock ls
  exact h.forest.rooted sp hsp

/-- A span context of small ids. -/
def spanOf (trace : BitVec 128) (span : BitVec 64) (h : trace ≠ 0 := by decide)
    (h' : span ≠ 0 := by decide) : SpanContext :=
  ⟨trace, span, h, h'⟩

def createdA : OutboxInsert :=
  OrderService.orderCreatedEvent ((Stamp.ofKey "k1" 1).withSpan w3c (spanOf 1 1))
    InventoryService.sagaA "customer" "SKU-1" (.lit 3) (.lit 10)

def createdB : OutboxInsert :=
  OrderService.orderCreatedEvent ((Stamp.ofKey "k2" 2).withSpan w3c (spanOf 2 2))
    InventoryService.sagaB "customer" "SKU-1" (.lit 3) (.lit 10)

/-- Two orders, of which the first is paid. -/
def twoOrders : List TracedLabel :=
  [⟨.createOrder ⟨"customer", "SKU-1", .lit 3, .lit 10⟩ InventoryService.sagaA (.ofKey "k1" 1),
      spanOf 1 1, none⟩,
    ⟨.createOrder ⟨"customer", "SKU-1", .lit 3, .lit 10⟩ InventoryService.sagaB (.ofKey "k2" 2),
      spanOf 2 2, none⟩,
    ⟨.publish .order 1, spanOf 3 3, none⟩,
    ⟨.paymentHandle createdA.record false (.ofKey "k3" 3), spanOf 4 4, none⟩]

theorem spans_rooted_twoOrders :
    ∃ root ∈ (runFrom (step w3c noText) (init InventoryService.tenUnits) twoOrders).spans,
      root.name = .createOrder ∧ root.parent = none ∧ root.context.trace = 1 ∧
        Relation.ReflTransGen (ChildOf (runFrom (step w3c noText)
          (init InventoryService.tenUnits) twoOrders).spans)
          ⟨.consume .orderCreated, spanOf 1 4, some (spanOf 1 1)⟩ root :=
  spans_rooted w3c noText InventoryService.tenUnits twoOrders
    ⟨.consume .orderCreated, spanOf 1 4, some (spanOf 1 1)⟩ (by decide +kernel)

/-! ## Different traces for different sagas -/

/-- CreateOrder draws a trace id that no span has. -/
def FreshTrace (t : Traced) (l : TracedLabel) : Prop :=
  ∀ req orderId stamp, l.label = .createOrder req orderId stamp →
    ∀ sp ∈ t.spans, sp.context.trace ≠ l.draw.trace

/-- The saga has an event. -/
def Known (t : Traced) (u : Uuid) : Prop := ∃ r, t.sys.facts.Committed r ∧ r.saga = some u

/-- Known sagas have different traces. -/
def Apart (t : Traced) (traceOf : Uuid → BitVec 128) : Prop :=
  ∀ u v, t.Known u → t.Known v → traceOf u = traceOf v → u = v

/-- The saga of a new order, with the step that creates it. -/
def Creates (t : Traced) (l : TracedLabel) (u : Uuid) : Prop :=
  ∃ req orderId stamp, l.label = .createOrder req orderId stamp ∧ uuidIn orderId = some u ∧
    t.sys.order.orders.find? u = none

/-- The databases after a step are as they were, or those after the step with the context of
some span in its stamp. -/
theorem sys_step (otel : Propagator) (py : PyText) (t : Traced) (l : TracedLabel) :
    (step otel py t l).sys = t.sys ∨ ∃ c,
      (step otel py t l).sys = System.step py t.sys (l.label.withSpan otel c) := by
  obtain ⟨label, draw, metadata⟩ := l
  cases label with
  | publish svc id => exact Or.inr ⟨draw, rfl⟩
  | markPublished svc id => exact Or.inr ⟨draw, rfl⟩
  | markFailed svc id => exact Or.inr ⟨draw, rfl⟩
  | drop req => exact Or.inr ⟨draw, rfl⟩
  | reply => exact Or.inr ⟨draw, rfl⟩
  | fail => exact Or.inr ⟨draw, rfl⟩
  | commitOffset => exact Or.inr ⟨draw, rfl⟩
  | crash => exact Or.inr ⟨draw, rfl⟩
  | call =>
    simp only [step]
    split
    · exact Or.inr ⟨draw, rfl⟩
    · exact Or.inl rfl
  | _ =>
    simp only [step]
    split
    · exact Or.inl rfl
    · exact Or.inr ⟨_, rfl⟩

/-- An event belongs to a saga that has one already, or to a new order. -/
theorem known_of_emits (h : t.sys.Inv) {l : TracedLabel} {c : SpanContext} {e : Record}
    (he : t.sys.Emits (l.label.withSpan otel c) e) {u : Uuid} (hu : e.saga = some u) :
    t.Known u ∨ t.Creates l u := by
  obtain ⟨label, draw, metadata⟩ := l
  have hmessage : ∀ {r : Record}, r ∈ t.sys.log → e.value.sagaId = r.value.sagaId → t.Known u := by
    intro r hr hsaga
    refine ⟨r, h.control.log r hr, ?_⟩
    rw [Record.saga, ← hsaga]
    exact hu
  cases label with
  | createOrder req orderId stamp =>
    cases he with
    | created hu' hnew hcarries =>
      have hu'' : uuidIn orderId = some u := hcarries.saga ▸ hu
      cases hu'.symm.trans hu''
      exact Or.inr ⟨req, orderId, stamp, rfl, hu', hnew⟩
  | orderHandle r stamp acked =>
    cases he with
    | cancelled hr hcarries => exact Or.inl (hmessage hr hcarries.saga)
  | paymentHandle r forceFailure stamp =>
    cases he with
    | paid hr hcarries => exact Or.inl (hmessage hr hcarries.saga)
  | serve req newId stamp =>
    cases he with
    | decided hreq hcarries =>
      obtain ⟨r, hcalls⟩ := h.control.requests req hreq
      refine Or.inl ⟨r, ⟨.order, hcalls.committed⟩, ?_⟩
      rw [← hcalls.saga_eq, ← hcarries.saga]
      exact hu
  | _ => cases he

theorem known_step (h : t.sys.Inv) (py : PyText) (l : TracedLabel) {u : Uuid}
    (hu : (step otel py t l).Known u) : t.Known u ∨ t.Creates l u := by
  obtain ⟨r, hr, hsaga⟩ := hu
  obtain heq | ⟨c, heq⟩ := sys_step otel py t l <;> rw [heq] at hr
  · exact Or.inl ⟨r, hr, hsaga⟩
  · rcases h.committed_step py _ hr with hr | he
    · exact Or.inl ⟨r, hr, hsaga⟩
    · exact known_of_emits h he hsaga

theorem assign_of_creates {l : TracedLabel} {u : Uuid} (hu : t.Creates l u) :
    assign t l traceOf u = l.draw.trace := by
  obtain ⟨req, orderId, stamp, hlabel, hu, hnone⟩ := hu
  simp [assign, hlabel, hu, hnone]

theorem assign_of_known (h : t.sys.Inv) {l : TracedLabel} {u : Uuid} (hu : t.Known u) :
    assign t l traceOf u = traceOf u := by
  obtain ⟨r, hr, hu⟩ := hu
  have hfind := h.order_of_committed hr hu
  cases hlabel : l.label <;> simp [assign, hlabel, hfind]

theorem Inv.trace_of_known (h : Inv otel t traceOf) {u : Uuid} (hu : t.Known u) :
    ∃ sp ∈ t.spans, sp.context.trace = traceOf u := by
  obtain ⟨r, hr, hu⟩ := hu
  obtain ⟨-, sp, hsp, -, htrace⟩ := h.events r hr
  exact ⟨sp, hsp, htrace u hu⟩

theorem Inv.apart_step (h : Inv otel t traceOf) (ha : t.Apart traceOf) (py : PyText)
    {l : TracedLabel} (hl : t.FreshTrace l) :
    (Traced.step otel py t l).Apart (assign t l traceOf) := by
  -- a known saga and a new one : the trace of the known one has a span
  have hmixed : ∀ {u v}, t.Known u → t.Creates l v →
      assign t l traceOf u ≠ assign t l traceOf v := by
    intro u v hu hv heq
    rw [assign_of_known h.sys hu, assign_of_creates hv] at heq
    obtain ⟨sp, hsp, htrace⟩ := h.trace_of_known hu
    obtain ⟨req, orderId, stamp, hlabel, -⟩ := hv
    exact hl req orderId stamp hlabel sp hsp (htrace.trans heq)
  intro u v hu hv heq
  obtain hu | hu := known_step h.sys py l hu <;> obtain hv | hv := known_step h.sys py l hv
  · rw [assign_of_known h.sys hu, assign_of_known h.sys hv] at heq
    exact ha u v hu hv heq
  · exact absurd heq (hmixed hu hv)
  · exact absurd heq.symm (hmixed hv hu)
  · obtain ⟨req, orderId, stamp, hlabel, hu, -⟩ := hu
    obtain ⟨req', orderId', stamp', hlabel', hv, -⟩ := hv
    cases hlabel.symm.trans hlabel'
    exact Option.some.inj (hu.symm.trans hv)

/-- If CreateOrder draws fresh trace ids, then in every reachable state two events are in one
trace exactly if they are of one saga. -/
theorem same_trace_iff (otel : Propagator) (py : PyText) (stock : InventoryService.Stock)
    (ls : List TracedLabel) (hfresh : Along (step otel py) FreshTrace (init stock) ls)
    (svc svc' : Service) (r r' : Record)
    (hr : r ∈ eventsOf ((runFrom (step otel py) (init stock) ls).sys.outbox svc))
    (hr' : r' ∈ eventsOf ((runFrom (step otel py) (init stock) ls).sys.outbox svc')) :
    (∃ id, InTrace otel id r ∧ InTrace otel id r') ↔ r.saga = r'.saga := by
  have hrun : Throughout (step otel py) (fun t => ∃ traceOf, Inv otel t traceOf ∧
    t.Apart traceOf) (init stock) ls := throughout_of_along ?_ ?_ hfresh
  · obtain ⟨traceOf, h, hapart⟩ := hrun.last
    have hin : ∀ {svc : Service} {r : Record},
        r ∈ eventsOf ((runFrom (step otel py) (init stock) ls).sys.outbox svc) →
        ∃ u, r.saga = some u ∧ (runFrom (step otel py) (init stock) ls).Known u ∧
          ∀ id, InTrace otel id r ↔ id = traceOf u := by
      intro svc r hr
      have hcommitted := (⟨svc, System.mem_events_iff.mpr hr⟩ :
        (runFrom (step otel py) (init stock) ls).sys.facts.Committed r)
      obtain ⟨u, hu⟩ := h.sys.consistent.saga r hcommitted
      obtain ⟨hheader, sp, -, hbody, htrace⟩ := h.events r hcommitted
      refine ⟨u, hu, ⟨r, hcommitted, hu⟩, fun id => ?_⟩
      rw [InTrace, hheader, hbody, otel.extract_inject, ← htrace u hu]
      constructor
      · rintro ⟨c, hc, -, rfl⟩
        rw [Option.some.inj hc]
      · rintro rfl
        exact ⟨sp.context, rfl, rfl, rfl⟩
    obtain ⟨u, hu, hknown, htrace⟩ := hin hr
    obtain ⟨v, hv, hknown', htrace'⟩ := hin hr'
    rw [hu, hv]
    constructor
    · rintro ⟨id, hid, hid'⟩
      rw [hapart u v hknown hknown' (((htrace id).mp hid).symm.trans ((htrace' id).mp hid'))]
    · intro heq
      cases heq
      exact ⟨traceOf u, (htrace _).mpr rfl, (htrace' _).mpr rfl⟩
  · rintro t l ⟨traceOf, h, hapart⟩ hl
    exact ⟨_, h.step py l, h.apart_step hapart py hl⟩
  · refine ⟨fun _ => 0, inv_init stock _, fun u v hu => ?_⟩
    obtain ⟨r, ⟨svc, hr⟩, -⟩ := hu
    cases svc <;> cases hr

theorem same_trace_iff_twoOrders :
    (∃ id, InTrace w3c id createdA.record ∧ InTrace w3c id
      (PaymentService.processedEvent ((Stamp.ofKey "k3" 3).withSpan w3c (spanOf 1 4))
        InventoryService.sagaA 10).record) ∧
      ¬∃ id, InTrace w3c id createdA.record ∧ InTrace w3c id createdB.record := by
  have hfresh : Along (step w3c noText) FreshTrace (init InventoryService.tenUnits)
      twoOrders := by
    refine ⟨fun _ _ _ _ => by decide +kernel, fun _ _ _ _ => by decide +kernel,
      fun _ _ _ h => (by cases h), fun _ _ _ h => (by cases h), trivial⟩
  have hrun : createdA.record ∈ eventsOf ((runFrom (step w3c noText)
        (init InventoryService.tenUnits) twoOrders).sys.outbox .order) ∧
      createdB.record ∈ eventsOf ((runFrom (step w3c noText)
        (init InventoryService.tenUnits) twoOrders).sys.outbox .order) ∧
      (PaymentService.processedEvent ((Stamp.ofKey "k3" 3).withSpan w3c (spanOf 1 4))
        InventoryService.sagaA 10).record ∈ eventsOf ((runFrom (step w3c noText)
        (init InventoryService.tenUnits) twoOrders).sys.outbox .payment) := by
    decide +kernel
  exact ⟨(same_trace_iff w3c _ _ _ hfresh .order .payment _ _ hrun.1 hrun.2.2).mpr rfl,
    fun h => absurd ((same_trace_iff w3c _ _ _ hfresh .order .order _ _ hrun.1 hrun.2.1).mp h)
      (by decide +kernel)⟩

end Traced

end Choreography
