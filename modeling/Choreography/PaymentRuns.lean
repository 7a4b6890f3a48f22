import Choreography.Payment
import Choreography.Runs

/-!
# Runs of the Payment service

`PaymentProcessor.handle` over any sequence of messages : the payments, the outbox and
the calls of ReserveStock. A payment is deduplicated by its saga, and a compensation by
its idempotency key and the status of the payment; the two meet on one row.

`handle_cases` says what one call can do to the payment of a saga (`Moved`), and
`Processor.Inv` is what every run keeps : the events of a saga are the history of its
status (`history`), and ReserveStock is called once at most, when the payment has just been
captured. `rows_events_and_calls_agree` collects it.
-/

namespace Choreography.PaymentService

/-! ## Runs -/

/-- A call of ReserveStock, with the tables at its time. -/
structure Call where
  req : ReserveStockRequest
  db : Db

/-- The tables of the service, and the calls of ReserveStock so far. -/
structure Processor where
  db : Db
  calls : List Call

/-- A new deployment. -/
def Processor.init : Processor := ⟨.empty, []⟩

/-- The arguments of one `handle`, with the flag at its time and the stamp that it draws. -/
structure Delivery where
  topic : Topic
  env : Parsed
  forceFailure : Bool
  stamp : Stamp

/-- The calls of a handler. -/
def Handled.calls (r : Handled) : List Call :=
  match r.next with
  | .reserve req => [⟨req, r.db⟩]
  | .done | .raise => []

/-- One `handle`. If its transaction fails, it raises and nothing has happened. -/
def Processor.step (py : PyText) (p : Processor) (d : Delivery) : Processor :=
  match handleParsed py d.forceFailure p.db d.topic d.env d.stamp with
  | .error _ => p
  | .ok r => ⟨r.db, p.calls ++ r.calls⟩

/-- The status of the saga's payment. -/
def Db.status (db : Db) (u : Uuid) : Option Status := (db.payments.find? u).map Payment.status

/-- The types of the saga's events. -/
def Db.eventTypes (db : Db) (u : Uuid) : List String := eventTypesOf u db.outbox

/-- The calls of ReserveStock for the saga. -/
def Processor.callsOf (p : Processor) (u : Uuid) : List Call :=
  p.calls.filter fun c => uuidIn c.req.sagaId = some u

/-! ## What one call does to a payment -/

/-- The payment of the saga `u` goes from `old` to `new`, with one event of the type
`eventType`. -/
structure Moved (db db' : Db) (u : Uuid) (old : Option Status) (new : Status)
    (eventType : String) : Prop where
  before : db.status u = old
  status : ∀ v, db'.status v = if v = u then some new else db.status v
  eventTypes : ∀ v, db'.eventTypes v =
    if v = u then db.eventTypes v ++ [eventType] else db.eventTypes v

variable {db db' : Db} {stamp : Stamp} {u : Uuid}

theorem Charged.moved {amount : ℚ} {status : Status} {ob : OutboxInsert}
    (h : Charged db stamp u amount status ob db') (hu : uuidIn ob.aggregateId = some u) :
    Moved db db' u none status ob.eventType where
  before := by
    rw [Db.status, (Table.insert_eq_some.mp h.payments).1]
    rfl
  status v := by
    rw [Db.status, Table.find?_of_insert h.payments]
    split_ifs <;> rfl
  eventTypes := eventTypesOf_insertOutbox h.outbox hu

theorem Compensated.moved {idem : String} {ob : OutboxInsert}
    (h : Compensated db stamp u idem ob db') (hst : db.status u = some .processed)
    (hu : uuidIn ob.aggregateId = some u) :
    Moved db db' u (some .processed) .refunded ob.eventType := by
  have htables := h.tables
  rw [← Db.status, if_pos hst] at htables
  refine ⟨hst, fun v => ?_, eventTypesOf_insertOutbox htables.2 hu⟩
  rw [Db.status, htables.1, find?_setRefunded]
  split_ifs
  · obtain ⟨p, hp, -⟩ := Option.map_eq_some_iff.mp hst
    rw [hp]
    rfl
  · rfl

/-- A `handle` that returns read its traceparent, and charged, refunded or ignored the message. -/
theorem handleParsed_eq_ok {py : PyText} {forceFailure : Bool} {topic : Topic} {env : Parsed}
    {r : Handled} (h : handleParsed py forceFailure db topic env stamp = .ok r) :
    (topic = .orderCreated ∧ handleOrderCreated py forceFailure db env stamp = .ok r) ∨
      ((topic = .inventoryReservationFailed ∧ py.traces env.traceparent) ∧
        handleCompensation py db env stamp = .ok r) ∨
      r = ⟨db, none, .done⟩ := by
  unfold handleParsed at h
  split_ifs at h with htrace
  split at h
  · exact Or.inl ⟨rfl, h⟩
  · exact Or.inr (Or.inl ⟨⟨rfl, htrace⟩, h⟩)
  · exact Or.inr (Or.inr (Except.ok.inj h).symm)

/-- One `handle` leaves the payments, the events and the calls as they are, or it charges
a saga that has no payment, or refunds one that is PROCESSED. -/
theorem handleParsed_cases {py : PyText} {forceFailure : Bool} {topic : Topic} {env : Parsed}
    {r : Handled} (h : handleParsed py forceFailure db topic env stamp = .ok r) :
    (r.db.payments = db.payments ∧ r.db.outbox = db.outbox ∧ r.calls = []) ∨
      ∃ u, (Moved db r.db u none .failed "PaymentFailed" ∧ r.calls = []) ∨
        (Moved db r.db u none .processed "PaymentProcessed" ∧
          (r.calls = [] ∨ ∃ req, uuidIn req.sagaId = some u ∧ r.calls = [⟨req, r.db⟩])) ∨
        (Moved db r.db u (some .processed) .refunded "PaymentRefunded" ∧ r.calls = []) := by
  obtain ⟨-, h⟩ | ⟨-, h⟩ | rfl := handleParsed_eq_ok h
  · obtain ⟨sagaId, amount, sku, quantity, -, h⟩ := handleOrderCreated_eq_ok h
    obtain ⟨u, hu, ⟨hdb, hnext, -⟩ | ⟨q, -, ⟨reason, hc, hnext⟩ | ⟨hc, hnext⟩⟩⟩ := charge_cases h
    · exact Or.inl ⟨by rw [hdb], by rw [hdb], by rw [Handled.calls, hnext]⟩
    · exact Or.inr ⟨u, Or.inl ⟨hc.moved hu, by rw [Handled.calls, hnext]⟩⟩
    · refine Or.inr ⟨u, Or.inr (Or.inl ⟨hc.moved hu, ?_⟩)⟩
      rw [Handled.calls, hnext, nextOf]
      split
      next req hreq =>
        split at hreq
        next key n _ _ =>
          obtain rfl := Next.reserve.inj hreq
          exact Or.inr ⟨⟨sagaId, key, sku, n⟩, hu, rfl⟩
        · cases hreq
      · exact Or.inl rfl
      · exact Or.inl rfl
  · obtain ⟨amount, key, -, -, hnext, hcases⟩ := handleCompensation_cases h
    have hcalls : r.calls = [] := by rw [Handled.calls, hnext]
    obtain ⟨-, hdb, -⟩ | ⟨-, -, ⟨-, hmissed⟩ | ⟨s, u, q, -, hu, hc, -⟩⟩ := hcases
    · exact Or.inl ⟨by rw [hdb], by rw [hdb], hcalls⟩
    · exact Or.inl ⟨by rw [hmissed.db], by rw [hmissed.db], hcalls⟩
    · by_cases hst : db.status u = some .processed
      · exact Or.inr ⟨u, Or.inr (Or.inr ⟨hc.moved hst hu, hcalls⟩)⟩
      · have htables := hc.tables
        rw [← Db.status, if_neg hst] at htables
        exact Or.inl ⟨htables.1, htables.2, hcalls⟩
  · exact Or.inl ⟨rfl, rfl, rfl⟩

/-! ## What a run keeps -/

/-- The events of a saga whose payment has the given status. -/
def history : Option Status → List String
  | none => []
  | some .processed => ["PaymentProcessed"]
  | some .failed => ["PaymentFailed"]
  | some .refunded => ["PaymentProcessed", "PaymentRefunded"]

/-- The payment was captured, and perhaps refunded since. -/
def Captured (st : Option Status) : Prop := st = some .processed ∨ st = some .refunded

instance (st : Option Status) : Decidable (Captured st) := inferInstanceAs (Decidable (_ ∨ _))

namespace Processor

/-- The events of a saga tell the history of its payment, and ReserveStock was called for
it once at most, when the payment had just been captured. -/
structure Inv (p : Processor) : Prop where
  events : ∀ u, p.db.eventTypes u = history (p.db.status u)
  calls : ∀ u, p.callsOf u = [] ∨
    Captured (p.db.status u) ∧ ∃ c, p.callsOf u = [c] ∧ c.db.status u = some .processed

theorem inv_init : Inv init where
  events _ := rfl
  calls _ := Or.inl rfl

variable {p : Processor}

theorem callsOf_append (db : Db) (calls : List Call) (u : Uuid) :
    (⟨db, p.calls ++ calls⟩ : Processor).callsOf u =
      p.callsOf u ++ calls.filter fun c => uuidIn c.req.sagaId = some u :=
  List.filter_append ..

/-- The history of a payment grows by the event of each step. -/
theorem Inv.events_of_moved (h : p.Inv) {old : Option Status} {new : Status} {eventType : String}
    (hm : Moved p.db db' u old new eventType)
    (hnew : history (some new) = history old ++ [eventType]) (v : Uuid) :
    db'.eventTypes v = history (db'.status v) := by
  rw [hm.eventTypes, hm.status]
  split_ifs with hv
  · rw [hv, h.events, hm.before, hnew]
  · exact h.events v

/-- A step that calls nothing keeps the calls, if it keeps captured payments so. -/
theorem Inv.calls_of_moved (h : p.Inv) {old : Option Status} {new : Status} {eventType : String}
    (hm : Moved p.db db' u old new eventType) (hnew : Captured old → Captured (some new))
    (v : Uuid) : p.callsOf v = [] ∨
      Captured (db'.status v) ∧ ∃ c, p.callsOf v = [c] ∧ c.db.status v = some .processed := by
  refine (h.calls v).imp_right fun ⟨hc, hcalls⟩ => ⟨?_, hcalls⟩
  rw [hm.status]
  split_ifs with hv
  · rw [hv, hm.before] at hc
    exact hnew hc
  · exact hc

theorem Inv.step (h : p.Inv) (py : PyText) (d : Delivery) : (p.step py d).Inv := by
  unfold Processor.step
  split
  · exact h
  next r hr =>
  obtain ⟨hpay, hout, hcalls⟩ | ⟨u, ⟨hm, hcalls⟩ | ⟨hm, hcalls⟩ | ⟨hm, hcalls⟩⟩ :=
    handleParsed_cases hr
  · have hst : ∀ v, r.db.status v = p.db.status v := fun v => by rw [Db.status, hpay]; rfl
    have hev : ∀ v, r.db.eventTypes v = p.db.eventTypes v := fun v => by
      rw [Db.eventTypes, hout]
      rfl
    refine ⟨fun v => ?_, fun v => ?_⟩
    · rw [hst, hev]
      exact h.events v
    · rw [hcalls, List.append_nil, hst]
      exact h.calls v
  · refine ⟨h.events_of_moved hm rfl, fun v => ?_⟩
    rw [hcalls, List.append_nil]
    exact h.calls_of_moved hm (fun hc => by simp [Captured] at hc) v
  · refine ⟨h.events_of_moved hm rfl, fun v => ?_⟩
    have hold := h.calls_of_moved hm (fun _ => Or.inl rfl) v
    rw [callsOf_append]
    obtain hcalls | ⟨req, hreq, hcalls⟩ := hcalls
    · rw [hcalls, List.filter_nil, List.append_nil]
      exact hold
    · by_cases hv : v = u
      · -- the saga had no payment, so nothing was called for it before
        subst hv
        have hnone : p.callsOf v = [] := by
          refine (h.calls v).resolve_right fun ⟨hc, _⟩ => ?_
          rw [hm.before] at hc
          simp [Captured] at hc
        have hst : r.db.status v = some .processed := by rw [hm.status, if_pos rfl]
        refine Or.inr ⟨Or.inl hst, ⟨req, r.db⟩, ?_, hst⟩
        rw [hnone, hcalls]
        simp [hreq]
      · have hfilter : ([⟨req, r.db⟩] : List Call).filter
            (fun c => uuidIn c.req.sagaId = some v) = [] := by
          simp [hreq, Ne.symm hv]
        rw [hcalls, hfilter, List.append_nil]
        exact hold
  · refine ⟨h.events_of_moved hm rfl, fun v => ?_⟩
    rw [hcalls, List.append_nil]
    exact h.calls_of_moved hm (fun _ => Or.inr rfl) v

theorem inv_run (py : PyText) (ds : List Delivery) : (runFrom (step py) init ds).Inv :=
  invariant_runFrom (I := Inv) (fun _ d h => h.step py d) ds inv_init

/-- FAILED and REFUNDED are final. -/
theorem status_step_of_final (py : PyText) (p : Processor) (d : Delivery) {u : Uuid} {st : Status}
    (hfinal : st ≠ .processed) (hst : p.db.status u = some st) :
    (p.step py d).db.status u = some st := by
  have hmoved : ∀ {db' : Db} {v : Uuid} {old : Option Status} {new : Status} {eventType : String},
      Moved p.db db' v old new eventType → old ≠ some st → db'.status u = some st := by
    intro db' v old new eventType hm hold
    rw [hm.status, if_neg, hst]
    rintro rfl
    exact hold (hm.before.symm.trans hst)
  unfold Processor.step
  split
  · exact hst
  next r hr =>
  obtain ⟨hpay, -, -⟩ | ⟨v, ⟨hm, -⟩ | ⟨hm, -⟩ | ⟨hm, -⟩⟩ := handleParsed_cases hr
  · rw [Db.status, hpay]
    exact hst
  · exact hmoved hm (by simp)
  · exact hmoved hm (by simp)
  · exact hmoved hm (by simpa using hfinal.symm)

/-! ## Rows, events and calls -/

/-- The payments, the events and the calls of the saga `u` agree after the run `ds`. -/
structure Agrees (py : PyText) (ds : List Delivery) (u : Uuid) : Prop where
  /-- There is at most one row. -/
  row : ((runFrom (step py) init ds).db.payments.rows.filter (·.sagaId = u)).length ≤ 1
  processed : ((runFrom (step py) init ds).db.eventTypes u).count "PaymentProcessed" =
    if Captured ((runFrom (step py) init ds).db.status u) then 1 else 0
  failed : ((runFrom (step py) init ds).db.eventTypes u).count "PaymentFailed" =
    if (runFrom (step py) init ds).db.status u = some .failed then 1 else 0
  refunded : ((runFrom (step py) init ds).db.eventTypes u).count "PaymentRefunded" =
    if (runFrom (step py) init ds).db.status u = some .refunded then 1 else 0
  /-- There is no other event. -/
  other : ∀ e ∈ (runFrom (step py) init ds).db.eventTypes u,
    e ∈ ["PaymentProcessed", "PaymentFailed", "PaymentRefunded"]
  /-- FAILED and REFUNDED never change. -/
  final : ∀ st, st = .failed ∨ st = .refunded →
    (runFrom (step py) init ds).db.status u = some st → ∀ ds',
      (runFrom (step py) init (ds ++ ds')).db.status u = some st
  once : ((runFrom (step py) init ds).callsOf u).length ≤ 1
  /-- At the time of a call the PROCESSED row is committed. -/
  captured : ∀ c ∈ (runFrom (step py) init ds).callsOf u, c.db.status u = some .processed
  /-- Nothing is reserved for a payment that failed. -/
  spared : (runFrom (step py) init ds).db.status u = some .failed →
    (runFrom (step py) init ds).callsOf u = []

end Processor

/-- After every run, the events of a saga are those of the statuses that its payment has had, and
ReserveStock was called at most once for it, after its payment was committed. -/
theorem rows_events_and_calls_agree (py : PyText) (ds : List Delivery) (u : Uuid) :
    Processor.Agrees py ds u := by
  have h := Processor.inv_run py ds
  constructor
  case row =>
    cases hp : (runFrom (Processor.step py) .init ds).db.payments.find? u with
    | some p => rw [Table.filter_of_find? hp, List.length_singleton]
    | none =>
      have hnone : (runFrom (Processor.step py) .init ds).db.payments.rows.filter
          (fun p => p.sagaId = u) = [] :=
        List.filter_eq_nil_iff.mpr fun p hmem => by simpa using Table.find?_eq_none.mp hp p hmem
      rw [hnone]
      exact Nat.zero_le 1
  case processed | failed | refunded =>
    rw [h.events]
    cases (runFrom (Processor.step py) .init ds).db.status u with
    | none => decide
    | some st => cases st <;> decide
  case other =>
    rw [h.events]
    cases (runFrom (Processor.step py) .init ds).db.status u with
    | none => decide
    | some st => cases st <;> decide
  case final =>
    intro st hst hs ds'
    rw [runFrom_append]
    refine invariant_runFrom (I := fun p : Processor => p.db.status u = some st)
      (fun p d hp => Processor.status_step_of_final py p d ?_ hp) ds' hs
    rintro rfl
    simp at hst
  case once =>
    obtain hnone | ⟨-, c, hc, -⟩ := h.calls u
    · rw [hnone]
      exact Nat.zero_le 1
    · rw [hc, List.length_singleton]
  case captured =>
    intro c hmem
    obtain hnone | ⟨-, c', hc, hst⟩ := h.calls u
    · simp [hnone] at hmem
    · rw [hc, List.mem_singleton] at hmem
      rw [hmem, hst]
  case spared =>
    intro hst
    refine (h.calls u).resolve_right fun ⟨hc, _⟩ => ?_
    rw [hst] at hc
    simp [Captured] at hc

end Choreography.PaymentService
