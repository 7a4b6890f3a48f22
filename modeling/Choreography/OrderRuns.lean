import Choreography.Order
import Choreography.Runs

/-!
# Runs of the Order service

CreateOrder calls, deliveries of arbitrary messages and the marks of the relay, in any
sequence, on the three tables of the service.

`step_cases` is everything that one operation can do, and `status_step` what it can do
to the status of one order. From them, over whole runs : rows and events tell the same story
(`rows_and_events_agree`), and a message that was settled once stays settled
(`redelivery_settled`), although a message that was dropped leaves no marker. The latter is
a property of the state machine : a trigger without effect stays without effect on every
continuation (`Quiet.apply`). A trigger that has advanced its order stays spent on every
continuation (`Spent.apply`), but a spent trigger is not always an accepted one : the order
that compensates refuses the PaymentProcessed that it came from (`replay_absorbed_iff`).
-/

namespace Choreography.OrderService

/-! ## Operations -/

inductive Op
  | createOrder (orderId customerId sku : String) (quantity : Int4) (amount : Float64)
      (stamp : Stamp)
  | handleEvent (topic : Topic) (value : Option Envelope) (stamp : Stamp)
  | markPublished (id : Uuid)
  | markFailed (id : Uuid)
  /-- A transaction in which a statement fails. -/
  | fail

/-- The tables after an operation. A transaction that fails has no effect. -/
def Db.step (db : Db) : Op → Db
  | .createOrder orderId customerId sku quantity amount stamp =>
    match OrderService.createOrder db orderId stamp customerId sku quantity amount with
    | .ok db' => db'
    | .error _ => db
  | .handleEvent topic value stamp => (OrderService.handleEvent db topic value stamp).db
  | .markPublished id => { db with outbox := Choreography.markPublished db.outbox id }
  | .markFailed id => { db with outbox := Choreography.markFailed db.outbox id }
  | .fail => db

/-- The status of an order. -/
def Db.status (db : Db) (u : Uuid) : Option Status := (db.orders.find? u).map Order.status

/-- The OrderCreated events of an order. -/
def Db.createdOf (db : Db) (u : Uuid) : List OutboxInsert :=
  (insertsOf u db.outbox).filter fun ob => ob.eventType = "OrderCreated"

/-- The number of OrderCancelled events of an order. -/
def Db.cancellations (db : Db) (u : Uuid) : ℕ :=
  (eventTypesOf u db.outbox).count eventOrderCancelled

/-- A new order, with its event. -/
structure Opened (db : Db) (o : Order) (ob : OutboxInsert) (stamp : Stamp) (db' : Db) : Prop where
  pending : o.status = .pending
  aggregate : uuidIn ob.aggregateId = some o.id
  eventType : ob.eventType = "OrderCreated"
  data : ob.payload.data = orderCreatedData ob.aggregateId o.customerId o.sku o.quantity o.amount
  orders : db.orders.insert o = some db'.orders
  processed : db'.processed = db.processed
  outbox : insertOutbox stamp db.outbox ob = .ok db'.outbox

variable {db : Db} {u : Uuid}

/-- An operation leaves the orders, the keys and the events as they are, or opens an
order, or applies an event. -/
theorem step_cases (db : Db) (op : Op) :
    ((db.step op).orders = db.orders ∧ (db.step op).processed = db.processed ∧
        ∀ u, insertsOf u (db.step op).outbox = insertsOf u db.outbox) ∨
      (∃ o ob stamp, Opened db o ob stamp (db.step op)) ∨
      ∃ t env stamp u o, Applied db t env stamp u o (db.step op) := by
  cases op with
  | createOrder orderId customerId sku quantity amount stamp =>
    simp only [Db.step]
    split
    next db' hok =>
      obtain ⟨-, u, hu, hins, hp, hb⟩ := Store.createOrder_eq_ok hok
      exact Or.inr (Or.inl ⟨_, _, stamp, rfl, hu, rfl, rfl, hins, hp, hb⟩)
    next => exact Or.inl ⟨rfl, rfl, fun _ => rfl⟩
  | handleEvent topic value stamp =>
    simp only [Db.step]
    have hidle : ∀ {db' : Db}, db' = db → (db'.orders = db.orders ∧
        db'.processed = db.processed ∧ ∀ u, insertsOf u db'.outbox = insertsOf u db.outbox) := by
      rintro _ rfl
      exact ⟨rfl, rfl, fun _ => rfl⟩
    cases ht : topicTrigger topic with
    | none => exact Or.inl (hidle (by simp [handleEvent, ht]))
    | some t =>
    cases value with
    | none => exact Or.inl (hidle (by simp [handleEvent, ht]))
    | some env =>
      obtain ⟨hdb, -⟩ | ⟨hdb, -⟩ | ⟨hdb, -⟩ | ⟨-, u, o, ha⟩ := handleEvent_cases db ht env stamp
      · exact Or.inl (hidle hdb)
      · exact Or.inl (hidle hdb)
      · exact Or.inl (hidle hdb)
      · exact Or.inr (Or.inr ⟨t, env, stamp, u, o, ha⟩)
  | markPublished id => exact Or.inl ⟨rfl, rfl, fun u => insertsOf_markPublished _ _ _⟩
  | markFailed id => exact Or.inl ⟨rfl, rfl, fun u => insertsOf_markFailed _ _ _⟩
  | fail => exact Or.inl ⟨rfl, rfl, fun _ => rfl⟩

theorem Applied.find? {db' : Db} {t : Trigger} {env : Envelope} {stamp : Stamp} {o : Order}
    (h : Applied db t env stamp u o db') (v : Uuid) :
    db'.orders.find? v =
      if v = u then some { o with status := (apply o.status t).1.next } else db.orders.find? v := by
  rw [h.orders, find?_setStatus, h.order]
  rfl

/-! ## The status of an order -/

theorem Applied.status {db' : Db} {t : Trigger} {env : Envelope} {stamp : Stamp} {o : Order}
    (h : Applied db t env stamp u o db') (v : Uuid) :
    db'.status v = if v = u then some (apply o.status t).1.next else db.status v := by
  rw [Db.status, h.find?]
  split_ifs <;> rfl

theorem Applied.status_before {db' : Db} {t : Trigger} {env : Envelope} {stamp : Stamp}
    {o : Order} (h : Applied db t env stamp u o db') : db.status u = some o.status := by
  rw [Db.status, h.order]
  rfl

theorem Opened.status {db' : Db} {o : Order} {ob : OutboxInsert} {stamp : Stamp}
    (h : Opened db o ob stamp db') (v : Uuid) :
    db'.status v = if v = o.id then some .pending else db.status v := by
  rw [Db.status, Table.find?_of_insert h.orders]
  split_ifs
  · exact congrArg some h.pending
  · rfl

theorem Opened.status_before {db' : Db} {o : Order} {ob : OutboxInsert} {stamp : Stamp}
    (h : Opened db o ob stamp db') : db.status o.id = none := by
  rw [Db.status, (Table.insert_eq_some.mp h.orders).1]
  rfl

/-- What an operation can do to the status of an order : nothing, or open the order, or
take it through a transition of the state machine, with a key that was not processed. -/
theorem status_step (db : Db) (op : Op) (u : Uuid) :
    (db.step op).status u = db.status u ∨
      (db.status u = none ∧ (db.step op).status u = some .pending) ∨
      ∃ cur t key, db.status u = some cur ∧ (apply cur t).2 = none ∧
        (db.step op).status u = some (apply cur t).1.next ∧ key ∉ db.processed ∧
        (db.step op).processed = key :: db.processed := by
  obtain ⟨ho, -, -⟩ | ⟨o, ob, stamp, h⟩ | ⟨t, env, stamp, v, o, h⟩ := step_cases db op
  · exact Or.inl (by rw [Db.status, ho]; rfl)
  · by_cases hu : u = o.id
    · exact Or.inr (Or.inl ⟨hu ▸ h.status_before, by rw [h.status, if_pos hu]⟩)
    · exact Or.inl (by rw [h.status, if_neg hu])
  · by_cases hu : u = v
    · subst hu
      exact Or.inr (Or.inr ⟨o.status, t, _, h.status_before, h.accepted,
        by rw [h.status, if_pos rfl], h.fresh, h.processed⟩)
    · exact Or.inl (by rw [h.status, if_neg hu])

/-- How far an order has come. -/
def Status.rank : Status → ℕ
  | .pending => 0
  | .paymentOk => 1
  | .compensating => 2
  | .confirmed | .cancelled => 3

theorem rank_apply (cur : Status) (t : Trigger) :
    (apply cur t).1.next = cur ∨ cur.rank < (apply cur t).1.next.rank := by
  cases cur <;> cases t <;> decide

theorem apply_terminal (cur : Status) (t : Trigger) (h : cur.isTerminal = true) :
    (apply cur t).1.next = cur := by
  revert h
  cases cur <;> cases t <;> decide

theorem apply_compensating (t : Trigger) :
    (apply .compensating t).1.next = .compensating ∨
      (apply .compensating t).1.next = .cancelled := by
  cases t <;> decide

/-- What every accepted trigger keeps of the status of an order, every operation keeps. -/
theorem exists_status_step {P : Status → Prop}
    (hP : ∀ cur t, P cur → (apply cur t).2 = none → P (apply cur t).1.next) (op : Op)
    (h : ∃ cur, db.status u = some cur ∧ P cur) :
    ∃ cur, (db.step op).status u = some cur ∧ P cur := by
  obtain ⟨cur, hcur, hp⟩ := h
  obtain heq | ⟨hnone, -⟩ | ⟨cur', t, key, hcur', hok, hnext, -⟩ := status_step db op u
  · exact ⟨cur, heq.trans hcur, hp⟩
  · exact nomatch hcur.symm.trans hnone
  · obtain rfl : cur = cur' := Option.some.inj (hcur.symm.trans hcur')
    exact ⟨_, hnext, hP cur t hp hok⟩

/-- CONFIRMED and CANCELLED are final. -/
theorem status_step_of_terminal (op : Op) {st : Status} (hterm : st.isTerminal = true)
    (h : db.status u = some st) : (db.step op).status u = some st := by
  obtain ⟨cur, hcur, rfl⟩ := exists_status_step (P := fun cur => cur = st) (fun cur t hc _ => by
    rw [hc, apply_terminal st t hterm]) op ⟨st, h, rfl⟩
  exact hcur

/-- An order that compensates is on its way to CANCELLED. -/
theorem status_step_of_compensating (op : Op)
    (h : db.status u = some .compensating ∨ db.status u = some .cancelled) :
    (db.step op).status u = some .compensating ∨ (db.step op).status u = some .cancelled := by
  have hP : ∀ cur t, cur = Status.compensating ∨ cur = .cancelled → (apply cur t).2 = none →
      (apply cur t).1.next = .compensating ∨ (apply cur t).1.next = .cancelled := by
    rintro cur t (rfl | rfl) -
    · exact apply_compensating t
    · exact Or.inr (apply_terminal .cancelled t rfl)
  obtain ⟨cur, hcur, rfl | rfl⟩ := exists_status_step hP op
    (h.elim (⟨_, ·, Or.inl rfl⟩) (⟨_, ·, Or.inr rfl⟩))
  · exact Or.inl hcur
  · exact Or.inr hcur

/-- The operation changes the status of an order that exists. -/
def StatusChanges (db : Db) (u : Uuid) (op : Op) : Prop :=
  db.status u ≠ none ∧ (db.step op).status u ≠ db.status u

instance (db : Db) (u : Uuid) (op : Op) : Decidable (StatusChanges db u op) :=
  inferInstanceAs (Decidable (_ ∧ _))

/-- The number of changes of the order's status along a run. -/
def statusChanges (u : Uuid) : Db → List Op → ℕ
  | _, [] => 0
  | db, op :: ops =>
    (if StatusChanges db u op then 1 else 0) + statusChanges u (db.step op) ops

/-- Every change takes the order further. -/
theorem rank_step (op : Op) {st : Status} (h : db.status u = some st) :
    ∃ st', (db.step op).status u = some st' ∧
      st.rank + (if StatusChanges db u op then 1 else 0) ≤ st'.rank := by
  obtain heq | ⟨hnone, -⟩ | ⟨cur, t, key, hcur, -, hnext, -⟩ := status_step db op u
  · refine ⟨st, heq.trans h, ?_⟩
    rw [if_neg fun hc => hc.2 heq]
    exact le_refl _
  · exact nomatch h.symm.trans hnone
  · obtain rfl : st = cur := Option.some.inj (h.symm.trans hcur)
    refine ⟨_, hnext, ?_⟩
    obtain hsame | hlt := rank_apply st t
    · rw [if_neg fun hc => hc.2 (by rw [hnext, hsame, h]), hsame]
      exact le_refl _
    · split_ifs
      · exact hlt
      · exact hlt.le

theorem rank_add_statusChanges_le {st : Status} (ops : List Op) (h : db.status u = some st) :
    st.rank + statusChanges u db ops ≤ 3 := by
  induction ops generalizing db st with
  | nil =>
    rw [statusChanges]
    cases st <;> decide
  | cons op ops ih =>
    obtain ⟨st', h', hrank⟩ := rank_step op h
    have := ih h'
    rw [statusChanges]
    omega

/-- An order changes its status three times at most. -/
theorem statusChanges_le (db : Db) (u : Uuid) (ops : List Op) : statusChanges u db ops ≤ 3 := by
  induction ops generalizing db with
  | nil => exact Nat.zero_le 3
  | cons op ops ih =>
    cases h : db.status u with
    | some st =>
      have := rank_add_statusChanges_le (op :: ops) h
      omega
    | none =>
      rw [statusChanges, if_neg fun hc => hc.1 h, Nat.zero_add]
      exact ih (db.step op)

/-! ## The events of an order -/

/-- Every order has one OrderCreated event, with its data. -/
def Announced (db : Db) (u : Uuid) : Prop :=
  match db.orders.find? u with
  | none => db.createdOf u = []
  | some o => ∃ ob, db.createdOf u = [ob] ∧
      ob.payload.data = orderCreatedData ob.aggregateId o.customerId o.sku o.quantity o.amount

theorem createdOf_insertOutbox {db' : Db} {stamp : Stamp} {ob : OutboxInsert}
    (h : insertOutbox stamp db.outbox ob = .ok db'.outbox) (hu : uuidIn ob.aggregateId = some u)
    (v : Uuid) : db'.createdOf v =
      if v = u ∧ ob.eventType = "OrderCreated" then db.createdOf v ++ [ob]
      else db.createdOf v := by
  rw [Db.createdOf, insertsOf_insertOutbox h hu]
  by_cases hv : v = u
  · by_cases ht : ob.eventType = "OrderCreated"
    · simp [hv, ht, Db.createdOf]
    · simp [hv, ht, Db.createdOf]
  · simp [hv, Db.createdOf]

theorem createdOf_applied {db' : Db} {t : Trigger} {env : Envelope} {stamp : Stamp} {o : Order}
    (h : Applied db t env stamp u o db') (v : Uuid) : db'.createdOf v = db.createdOf v := by
  have hne : eventOrderCancelled ≠ "OrderCreated" := by decide
  have hob := h.outbox
  split_ifs at hob
  · rw [createdOf_insertOutbox hob h.saga, if_neg fun hc => hne hc.2]
  · rw [Db.createdOf, hob]
    rfl

theorem Announced.step (h : Announced db u) (op : Op) : Announced (db.step op) u := by
  obtain ⟨ho, -, hob⟩ | ⟨o, ob, stamp, ho⟩ | ⟨t, env, stamp, v, o, ha⟩ := step_cases db op
  · rw [Announced, ho, Db.createdOf, hob]
    exact h
  · rw [Announced, Table.find?_of_insert ho.orders, createdOf_insertOutbox ho.outbox ho.aggregate]
    by_cases hu : u = o.id
    · rw [Announced, hu, (Table.insert_eq_some.mp ho.orders).1] at h
      rw [if_pos hu, if_pos ⟨hu, ho.eventType⟩, hu, h]
      exact ⟨ob, rfl, ho.data⟩
    · rw [if_neg hu, if_neg fun hc => hu hc.1]
      exact h
  · rw [Announced, ha.find?, createdOf_applied ha]
    by_cases hu : u = v
    · rw [Announced, hu, ha.order] at h
      rw [if_pos hu, hu]
      exact h
    · rw [if_neg hu]
      exact h

/-- A CANCELLED order has one OrderCancelled event, and no other order has one. -/
def Retracted (db : Db) (u : Uuid) : Prop :=
  db.cancellations u = if db.status u = some .cancelled then 1 else 0

theorem cancellations_insertOutbox {db' : Db} {stamp : Stamp} {ob : OutboxInsert}
    (h : insertOutbox stamp db.outbox ob = .ok db'.outbox) (hu : uuidIn ob.aggregateId = some u)
    (v : Uuid) : db'.cancellations v = db.cancellations v +
      if v = u ∧ ob.eventType = eventOrderCancelled then 1 else 0 := by
  rw [Db.cancellations, eventTypesOf_insertOutbox h hu]
  by_cases hv : v = u
  · by_cases ht : ob.eventType = eventOrderCancelled
    · simp [hv, ht, Db.cancellations]
    · simp [hv, ht, Db.cancellations]
  · simp [hv, Db.cancellations]

theorem Retracted.applied (h : Retracted db u) {db' : Db} {t : Trigger} {env : Envelope}
    {stamp : Stamp} {v : Uuid} {o : Order} (ha : Applied db t env stamp v o db') :
    Retracted db' u := by
  have hcur := ha.status_before
  have hob := ha.outbox
  rw [Retracted, ha.status]
  split_ifs at hob with hc
  · -- the order becomes CANCELLED now, and is announced now
    rw [cancellations_insertOutbox hob ha.saga, h]
    by_cases hu : u = v
    · have hne : some o.status ≠ some Status.cancelled := by simpa using hc.1
      rw [if_pos hu, hu, hcur, if_neg hne, if_pos ⟨rfl, rfl⟩, hc.2, if_pos rfl]
    · have hother : ¬(u = v ∧
          (orderCancelledEvent stamp env.sagaId).eventType = eventOrderCancelled) :=
        fun hc' => hu hc'.1
      rw [if_neg hu, if_neg hother, Nat.add_zero]
  · rw [Db.cancellations, hob]
    refine Eq.trans h ?_
    by_cases hu : u = v
    · have hiff : (some o.status = some .cancelled) ↔
          some (apply o.status t).1.next = some .cancelled := by
        simp only [Option.some.injEq]
        constructor
        · intro hcan
          rw [apply_terminal o.status t (by rw [hcan]; rfl), hcan]
        · intro hnext
          by_contra hne
          exact hc ⟨hne, hnext⟩
      rw [if_pos hu, hu, hcur]
      exact if_congr hiff rfl rfl
    · rw [if_neg hu]

theorem Retracted.step (h : Retracted db u) (op : Op) : Retracted (db.step op) u := by
  obtain ⟨ho, -, hob⟩ | ⟨o, ob, stamp, ho⟩ | ⟨t, env, stamp, v, o, ha⟩ := step_cases db op
  · rw [Retracted, Db.cancellations, eventTypesOf, hob, Db.status, ho]
    exact h
  · have hother : ¬(u = o.id ∧ ob.eventType = eventOrderCancelled) := by
      rw [ho.eventType]
      exact fun hc => absurd hc.2 (by decide)
    rw [Retracted, cancellations_insertOutbox ho.outbox ho.aggregate, if_neg hother, Nat.add_zero,
      ho.status]
    refine Eq.trans h ?_
    by_cases hu : u = o.id
    · rw [if_pos hu, hu, ho.status_before]
      rfl
    · rw [if_neg hu]
  · exact h.applied ha

/-! ## Rows and events -/

/-- The order `u` and its events after the run `ops` of a new deployment. -/
structure Story (ops : List Op) (u : Uuid) : Prop where
  /-- The order has exactly one OrderCreated event, with its id, SKU, quantity and amount. -/
  created : ∀ o, (runFrom Db.step .empty ops).orders.find? u = some o →
    ∃ ob, (runFrom Db.step .empty ops).createdOf u = [ob] ∧
      ob.payload.data = orderCreatedData ob.aggregateId o.customerId o.sku o.quantity o.amount
  cancelled : (runFrom Db.step .empty ops).cancellations u =
    if (runFrom Db.step .empty ops).status u = some .cancelled then 1 else 0
  /-- CONFIRMED and CANCELLED never change. -/
  final : ∀ st, st = .confirmed ∨ st = .cancelled →
    (runFrom Db.step .empty ops).status u = some st → ∀ ops',
      (runFrom Db.step .empty (ops ++ ops')).status u = some st
  /-- An order that has been COMPENSATING is never CONFIRMED. -/
  compensating : (runFrom Db.step .empty ops).status u = some .compensating → ∀ ops',
    (runFrom Db.step .empty (ops ++ ops')).status u ≠ some .confirmed
  /-- A change of the status comes with a new processed key. -/
  keyed : ∀ op, StatusChanges (runFrom Db.step .empty ops) u op →
    ∃ key, key ∉ (runFrom Db.step .empty ops).processed ∧
      ((runFrom Db.step .empty ops).step op).processed =
        key :: (runFrom Db.step .empty ops).processed
  changes : statusChanges u .empty ops ≤ 3

/-- After every run from the empty database, the orders, their events and the keys in
`processed_messages` tell the same story of a saga. -/
theorem rows_and_events_agree (ops : List Op) (u : Uuid) : Story ops u := by
  constructor
  case created =>
    intro o ho
    have h : Announced (runFrom Db.step .empty ops) u :=
      invariant_runFrom (I := fun db : Db => Announced db u) (fun _ op h => h.step op) ops rfl
    rwa [Announced, ho] at h
  case cancelled =>
    exact invariant_runFrom (I := fun db : Db => Retracted db u) (fun _ op h => h.step op) ops rfl
  case final =>
    intro st hst h ops'
    rw [runFrom_append]
    refine invariant_runFrom (I := fun db : Db => db.status u = some st)
      (fun _ op h => status_step_of_terminal op ?_ h) ops' h
    obtain rfl | rfl := hst <;> rfl
  case compensating =>
    intro h ops' hconf
    rw [runFrom_append] at hconf
    obtain h | h := invariant_runFrom
      (I := fun db : Db => db.status u = some .compensating ∨ db.status u = some .cancelled)
      (fun _ op h => status_step_of_compensating op h) ops' (Or.inl h)
    · exact nomatch hconf.symm.trans h
    · exact nomatch hconf.symm.trans h
  case keyed =>
    rintro op ⟨hsome, hne⟩
    obtain heq | ⟨hnone, -⟩ | ⟨cur, t, key, -, -, -, hkey, hprocessed⟩ :=
      status_step (runFrom Db.step .empty ops) op u
    · exact absurd heq hne
    · exact absurd hnone hsome
    · exact ⟨key, hkey, hprocessed⟩
  case changes => exact statusChanges_le .empty u ops

/-! ## Settled messages -/

/-- The trigger has no effect on an order of the status : it is invalid, or absorbed. -/
def Quiet (cur : Status) (t : Trigger) : Prop :=
  (apply cur t).2 = some .invalidTransition ∨
    (apply cur t).2 = none ∧ (apply cur t).1.changed = false

instance (cur : Status) (t : Trigger) : Decidable (Quiet cur t) :=
  inferInstanceAs (Decidable (_ ∨ _))

/-- A trigger without effect stays so when the order goes on. -/
theorem Quiet.apply {cur : Status} {t : Trigger} (h : Quiet cur t) {t' : Trigger}
    (hok : (OrderService.apply cur t').2 = none) :
    Quiet (OrderService.apply cur t').1.next t := by
  revert h hok
  cases cur <;> cases t <;> cases t' <;> decide

/-- The event is processed, or its trigger has no effect on its order. -/
def Settled (db : Db) (t : Trigger) (env : Envelope) : Prop :=
  hasNul env.idempotencyKey = false ∧ ((env.idempotencyKey, consumerName) ∈ db.processed ∨
    ∃ u cur, uuidIn env.sagaId = some u ∧ db.status u = some cur ∧ Quiet cur t)

theorem processed_subset_step (db : Db) (op : Op) : db.processed ⊆ (db.step op).processed := by
  obtain ⟨-, hp, -⟩ | ⟨o, ob, stamp, h⟩ | ⟨t, env, stamp, v, o, h⟩ := step_cases db op
  · rw [hp]
    exact fun _ hk => hk
  · rw [h.processed]
    exact fun _ hk => hk
  · rw [h.processed]
    exact List.subset_cons_self _ _

theorem Settled.step {t : Trigger} {env : Envelope} (h : Settled db t env) (op : Op) :
    Settled (db.step op) t env := by
  refine ⟨h.1, ?_⟩
  obtain hm | ⟨u, cur, hu, hcur, hq⟩ := h.2
  · exact Or.inl (processed_subset_step db op hm)
  · obtain ⟨cur', hcur', hq'⟩ :=
      exists_status_step (fun _ _ (hq : Quiet _ t) => hq.apply) op ⟨cur, hcur, hq⟩
    exact Or.inr ⟨u, cur', hu, hcur', hq'⟩

/-- PostgreSQL refuses a key with a NUL. -/
theorem hasNul_of_err_eq_none {topic : Topic} {t : Trigger} (ht : topicTrigger topic = some t)
    {env : Envelope} {stamp : Stamp} (herr : (handleEvent db topic (some env) stamp).err = none) :
    hasNul env.idempotencyKey = false := by
  by_contra h
  rw [Bool.not_eq_false] at h
  simp [handleEvent, ht, Store.handleEvent, h] at herr

/-- A message that was handled without an error, while its order exists, is settled. -/
theorem settled_of_handled {topic : Topic} {t : Trigger} (ht : topicTrigger topic = some t)
    {env : Envelope} {stamp : Stamp} (hu : uuidIn env.sagaId = some u) (ho : db.status u ≠ none)
    (herr : (handleEvent db topic (some env) stamp).err = none) :
    Settled (handleEvent db topic (some env) stamp).db t env := by
  have htext : hasNul env.idempotencyKey = false := hasNul_of_err_eq_none ht herr
  obtain ⟨-, hne⟩ | ⟨hdb, hm⟩ | ⟨hdb, hdrop⟩ | ⟨-, v, o, ha⟩ := handleEvent_cases db ht env stamp
  · exact absurd herr hne
  · rw [hdb]
    exact ⟨htext, Or.inl hm⟩
  · rw [hdb]
    obtain ⟨v, hv, hnone⟩ | ⟨-, v, o, hv, ho', hinv⟩ := hdrop
    · obtain rfl : v = u := Option.some.inj (hv.symm.trans hu)
      rw [Db.status, hnone] at ho
      exact absurd rfl ho
    · exact ⟨htext, Or.inr ⟨v, o.status, hv, by rw [Db.status, ho']; rfl, Or.inl hinv⟩⟩
  · refine ⟨htext, Or.inl ?_⟩
    rw [ha.processed]
    exact List.mem_cons_self

/-- A settled message is handled without an error and without an effect on the orders and
the outbox. -/
theorem handleEvent_of_settled {topic : Topic} {t : Trigger} (ht : topicTrigger topic = some t)
    {env : Envelope} (h : Settled db t env) (stamp : Stamp) :
    (handleEvent db topic (some env) stamp).err = none ∧
      (handleEvent db topic (some env) stamp).db.orders = db.orders ∧
      (handleEvent db topic (some env) stamp).db.outbox = db.outbox := by
  obtain ⟨htext, h⟩ := h
  by_cases hm : (env.idempotencyKey, consumerName) ∈ db.processed
  · simp [handleEvent, ht, Store.handleEvent, htext, markProcessed_eq_none.mpr hm]
  · obtain ⟨u, cur, hu, hcur, hq⟩ := h.resolve_left hm
    obtain ⟨o, ho, rfl⟩ := Option.map_eq_some_iff.mp hcur
    obtain hinv | ⟨hok, hsame⟩ := hq
    · have hst := store_handleEvent_of_refused htext ⟨hm, u, o, hu, ho, hinv⟩ stamp
      simp [handleEvent, ht, hst]
    · obtain ⟨hnext, -⟩ := apply_unchanged _ _ hsame
      have hcan : ¬Cancels o.status t := fun hc => hc.1 (hnext.symm.trans hc.2)
      obtain ⟨-, hc, -⟩ | ⟨db', ha, hst⟩ := store_handleEvent_of_accepted htext hm hu ho hok stamp
      · exact absurd hc hcan
      · have horders : db'.orders = db.orders := by
          rw [ha.orders, hnext]
          exact Table.update_self ho rfl
        have houtbox := ha.outbox
        rw [if_neg hcan] at houtbox
        simp only [handleEvent, ht, hst]
        exact ⟨trivial, horders, houtbox⟩

/-- Once a message has been handled without an error while its order exists, every later
redelivery of it is handled without an error, changes no order and enqueues nothing,
whatever happened in between. -/
theorem redelivery_settled (db : Db) (topic : Topic) (value : Option Envelope) (stamp : Stamp)
    (hexists : ∀ env, value = some env → ∃ u, uuidIn env.sagaId = some u ∧ db.status u ≠ none)
    (herr : (handleEvent db topic value stamp).err = none) (ops : List Op) (stamp' : Stamp) :
    let later := runFrom Db.step (handleEvent db topic value stamp).db ops
    (handleEvent later topic value stamp').err = none ∧
      (handleEvent later topic value stamp').db.orders = later.orders ∧
      (handleEvent later topic value stamp').db.outbox = later.outbox := by
  intro later
  cases ht : topicTrigger topic with
  | none => simp [handleEvent, ht]
  | some t =>
  cases value with
  | none => simp [handleEvent, ht]
  | some env =>
    obtain ⟨u, hu, ho⟩ := hexists env rfl
    have hsettled : Settled later t env :=
      invariant_runFrom (I := fun db : Db => Settled db t env) (fun _ op h => h.step op) ops
        (settled_of_handled ht hu ho herr)
    exact handleEvent_of_settled ht hsettled stamp'

/-- An event of the saga 10. -/
def sagaEvent (key : String) (h : hasNul key = false := by exact Eq.refl false) : Envelope :=
  Envelope.new (.ofKey key 0 h) "" (uuidOut 10) "" .null

/-- The order 10, created and paid for. -/
def paidOrder : Db :=
  runFrom Db.step .empty
    [.createOrder (uuidOut 10) "customer" "SKU-1" (.lit 1) (.lit 5) (.ofKey "k1" 1),
      .handleEvent .paymentProcessed (some (sagaEvent "k2")) (.ofKey "" 2)]

/-- PaymentFailed is dropped, since the payment was captured, and it is dropped again, or
absorbed, after the order is confirmed. -/
theorem redelivery_settled_dropped :
    paidOrder.status 10 = some .paymentOk ∧
      (handleEvent paidOrder .paymentFailed (some (sagaEvent "k3")) (.ofKey "" 3)).err = none ∧
      let later := runFrom Db.step
        (handleEvent paidOrder .paymentFailed (some (sagaEvent "k3")) (.ofKey "" 3)).db
        [.handleEvent .inventoryReserved (some (sagaEvent "k4")) (.ofKey "" 4)]
      later.status 10 = some .confirmed ∧
        (handleEvent later .paymentFailed (some (sagaEvent "k3")) (.ofKey "" 5)).err = none ∧
        (handleEvent later .paymentFailed (some (sagaEvent "k3")) (.ofKey "" 5)).db.orders =
          later.orders ∧
        (handleEvent later .paymentFailed (some (sagaEvent "k3")) (.ofKey "" 5)).db.outbox =
          later.outbox := by
  have hrun : paidOrder.status 10 = some .paymentOk ∧
      (handleEvent paidOrder .paymentFailed (some (sagaEvent "k3")) (.ofKey "" 3)).err = none ∧
      uuidIn (sagaEvent "k3").sagaId = some 10 ∧
      (runFrom Db.step
        (handleEvent paidOrder .paymentFailed (some (sagaEvent "k3")) (.ofKey "" 3)).db
        [.handleEvent .inventoryReserved (some (sagaEvent "k4")) (.ofKey "" 4)]).status 10 =
          some .confirmed := by
    decide +kernel
  obtain ⟨hpaid, herr, hu, hlater⟩ := hrun
  refine ⟨hpaid, herr, hlater, redelivery_settled paidOrder .paymentFailed _ _ ?_ herr _ _⟩
  intro env henv
  obtain rfl := Option.some.inj henv
  exact ⟨10, hu, by rw [hpaid]; simp⟩

/-! ## Replayed triggers -/

/-- What a trigger that has advanced an order finds there : it is absorbed, except that
PaymentProcessed is no transition of an order that compensates. -/
def Spent (cur : Status) (t : Trigger) : Prop :=
  (apply cur t).2 = none ∧ (apply cur t).1.changed = false ∨
    cur = .compensating ∧ t = .paymentProcessed

instance (cur : Status) (t : Trigger) : Decidable (Spent cur t) :=
  inferInstanceAs (Decidable (_ ∨ _))

theorem spent_of_advances {cur : Status} {t : Trigger} (hok : (apply cur t).2 = none)
    (h : (apply cur t).1.next ≠ cur) : Spent (apply cur t).1.next t := by
  revert hok h
  cases cur <;> cases t <;> decide

theorem Spent.apply {cur : Status} {t : Trigger} (h : Spent cur t) {t' : Trigger}
    (hok : (OrderService.apply cur t').2 = none) :
    Spent (OrderService.apply cur t').1.next t := by
  revert h hok
  cases cur <;> cases t <;> cases t' <;> decide

theorem Spent.quiet {cur : Status} {t : Trigger} (h : Spent cur t) : Quiet cur t := by
  revert h
  cases cur <;> cases t <;> decide

/-- The one refusal of a trigger that has advanced the order. -/
theorem Spent.refused_iff {cur : Status} {t : Trigger} (h : Spent cur t) :
    (∃ e, (OrderService.apply cur t).2 = some e) ↔ t = .paymentProcessed ∧ cur = .compensating := by
  obtain ⟨hok, -⟩ | ⟨rfl, rfl⟩ := h
  · rw [hok]
    refine ⟨fun ⟨e, he⟩ => (nomatch he), ?_⟩
    rintro ⟨rfl, rfl⟩
    exact nomatch hok
  · exact ⟨fun _ => ⟨rfl, rfl⟩, fun _ => ⟨.invalidTransition, rfl⟩⟩

/-- A message with the trigger changed the status of the order on the way. -/
def Advanced (db : Db) (u : Uuid) (t : Trigger) (ops : List Op) : Prop :=
  ∃ pre value stamp post, ops = pre ++ .handleEvent t.topic value stamp :: post ∧
    StatusChanges (runFrom Db.step db pre) u (.handleEvent t.topic value stamp)

/-- The delivery that changes the status of the order leaves its trigger spent. -/
theorem spent_of_statusChanges {t : Trigger} {value : Option Envelope} {stamp : Stamp}
    (h : StatusChanges db u (.handleEvent t.topic value stamp)) :
    ∃ cur, (db.step (.handleEvent t.topic value stamp)).status u = some cur ∧ Spent cur t := by
  have ht : topicTrigger t.topic = some t := topicTrigger_eq_some.mpr rfl
  obtain ⟨-, hne⟩ := h
  have hsame : ∀ {db' : Db}, db' = db → db'.status u ≠ db.status u → False := by
    rintro _ rfl hne
    exact hne rfl
  cases value with
  | none => exact (hsame (by simp [Db.step, handleEvent, ht]) hne).elim
  | some env =>
    obtain ⟨hdb, -⟩ | ⟨hdb, -⟩ | ⟨hdb, -⟩ | ⟨-, v, o, ha⟩ := handleEvent_cases db ht env stamp
    · exact (hsame hdb hne).elim
    · exact (hsame hdb hne).elim
    · exact (hsame hdb hne).elim
    · have hst : (db.step (.handleEvent t.topic (some env) stamp)).status u = _ := ha.status u
      by_cases hu : u = v
      · subst hu
        rw [hst, if_pos rfl, ha.status_before] at hne
        exact ⟨_, hst.trans (if_pos rfl), spent_of_advances ha.accepted fun hc => hne (by rw [hc])⟩
      · exact absurd (hst.trans (if_neg hu)) hne

theorem spent_of_advanced {t : Trigger} {ops : List Op} (h : Advanced db u t ops) :
    ∃ cur, (runFrom Db.step db ops).status u = some cur ∧ Spent cur t := by
  obtain ⟨pre, value, stamp, post, rfl, hc⟩ := h
  rw [runFrom_append]
  exact invariant_runFrom (I := fun db : Db => ∃ cur, db.status u = some cur ∧ Spent cur t)
    (fun _ op h => exists_status_step (fun _ _ h => h.apply) op h) post (spent_of_statusChanges hc)

/-- The message is handled without an error and without an effect, and the state machine
accepts it or is not asked. -/
structure Absorbed (db : Db) (u : Uuid) (t : Trigger) (env : Envelope) (stamp : Stamp) : Prop where
  err : (handleEvent db t.topic (some env) stamp).err = none
  /-- Neither the invalid-transition branch nor the premature one is reached. -/
  accepted : ∀ e, Store.handleEvent db stamp env.idempotencyKey consumerName env.sagaId
    (eventTx t stamp env.sagaId) ≠ .error (.transition e)
  status : (handleEvent db t.topic (some env) stamp).db.status u = db.status u
  outbox : (handleEvent db t.topic (some env) stamp).db.outbox = db.outbox

/-- A trigger that has advanced the order is absorbed under every key that PostgreSQL
accepts, whatever happened since, unless it is PaymentProcessed under a new key and the order
compensates : that one ends in the invalid-transition branch. -/
theorem replay_absorbed_iff (db : Db) (u : Uuid) (t : Trigger) (ops : List Op)
    (hadv : Advanced db u t ops) (env : Envelope) (hu : uuidIn env.sagaId = some u)
    (stamp : Stamp) :
    let later := runFrom Db.step db ops
    Absorbed later u t env stamp ↔ hasNul env.idempotencyKey = false ∧
      ((env.idempotencyKey, consumerName) ∈ later.processed ∨
        ¬(t = .paymentProcessed ∧ later.status u = some .compensating)) := by
  intro later
  have ht : topicTrigger t.topic = some t := topicTrigger_eq_some.mpr rfl
  obtain ⟨cur, hcur, hspent⟩ := spent_of_advanced hadv
  obtain ⟨o, ho, rfl⟩ := Option.map_eq_some_iff.mp hcur
  constructor
  · intro h
    have htext : hasNul env.idempotencyKey = false := hasNul_of_err_eq_none ht h.err
    refine ⟨htext, or_iff_not_imp_left.mpr ?_⟩
    rintro hm ⟨rfl, hcomp⟩
    obtain ⟨e, he⟩ := hspent.refused_iff.mpr ⟨rfl, Option.some.inj (hcur.symm.trans hcomp)⟩
    exact h.accepted e (store_handleEvent_of_refused htext ⟨hm, u, o, hu, ho, he⟩ stamp)
  · rintro ⟨htext, h⟩
    have hsettled : Settled later t env :=
      ⟨htext, Or.inr ⟨u, o.status, hu, hcur, hspent.quiet⟩⟩
    obtain ⟨herr, horders, houtbox⟩ := handleEvent_of_settled ht hsettled stamp
    refine ⟨herr, fun e he => ?_, by rw [Db.status, horders]; rfl, houtbox⟩
    obtain ⟨hm, v, o', hv, ho', hap⟩ := refused_of_store_error he
    obtain rfl : v = u := Option.some.inj (hv.symm.trans hu)
    obtain rfl : o' = o := Option.some.inj (ho'.symm.trans ho)
    obtain ⟨rfl, hcomp⟩ := hspent.refused_iff.mp ⟨e, hap⟩
    exact h.resolve_left hm ⟨rfl, hcur.trans (congrArg some hcomp)⟩

/-- The order 10, created. -/
def newOrder : Db :=
  runFrom Db.step .empty
    [.createOrder (uuidOut 10) "customer" "SKU-1" (.lit 1) (.lit 5) (.ofKey "k1" 1)]

/-- InventoryReserved, replayed under a new key on the order that it confirmed. -/
theorem replay_absorbed_iff_confirmed :
    newOrder.status 10 = some .pending ∧
      Absorbed (runFrom Db.step newOrder
        [.handleEvent .paymentProcessed (some (sagaEvent "k2")) (.ofKey "" 2),
          .handleEvent .inventoryReserved (some (sagaEvent "k3")) (.ofKey "" 3)])
        10 .inventoryReserved (sagaEvent "k4") (.ofKey "" 4) := by
  have hrun : newOrder.status 10 = some .pending ∧
      StatusChanges (runFrom Db.step newOrder
        [.handleEvent .paymentProcessed (some (sagaEvent "k2")) (.ofKey "" 2)]) 10
        (.handleEvent .inventoryReserved (some (sagaEvent "k3")) (.ofKey "" 3)) ∧
      uuidIn (sagaEvent "k4").sagaId = some 10 ∧
      hasNul (sagaEvent "k4").idempotencyKey = false := by
    decide +kernel
  obtain ⟨hpending, hchange, hu, htext⟩ := hrun
  refine ⟨hpending, (replay_absorbed_iff newOrder 10 .inventoryReserved _ ?_ _ hu _).mpr
    ⟨htext, Or.inr fun hc => (nomatch hc.1)⟩⟩
  exact ⟨[.handleEvent .paymentProcessed (some (sagaEvent "k2")) (.ofKey "" 2)], _, _, [], rfl,
    hchange⟩

/-- A PENDING order is paid for, then its reservation fails. PaymentProcessed under a new
key, which took it from PENDING to PAYMENT_OK, is an invalid transition now. -/
theorem replay_of_paymentProcessed_invalid :
    ∃ ops, newOrder.status 10 = some .pending ∧ Advanced newOrder 10 .paymentProcessed ops ∧
      (runFrom Db.step newOrder ops).status 10 = some .compensating ∧
      uuidIn (sagaEvent "k4").sagaId = some 10 ∧
      Store.handleEvent (runFrom Db.step newOrder ops) (.ofKey "" 4)
        (sagaEvent "k4").idempotencyKey consumerName (sagaEvent "k4").sagaId
        (eventTx .paymentProcessed (.ofKey "" 4) (sagaEvent "k4").sagaId) =
          .error (.transition .invalidTransition) ∧
      ¬Absorbed (runFrom Db.step newOrder ops) 10 .paymentProcessed (sagaEvent "k4")
        (.ofKey "" 4) := by
  have hrun : newOrder.status 10 = some .pending ∧
      StatusChanges newOrder 10
        (.handleEvent .paymentProcessed (some (sagaEvent "k2")) (.ofKey "" 2)) ∧
      (runFrom Db.step newOrder
        [.handleEvent .paymentProcessed (some (sagaEvent "k2")) (.ofKey "" 2),
          .handleEvent .inventoryReservationFailed (some (sagaEvent "k3")) (.ofKey "" 3)]).status
        10 = some .compensating ∧
      uuidIn (sagaEvent "k4").sagaId = some 10 ∧
      hasNul (sagaEvent "k4").idempotencyKey = false ∧
      ((sagaEvent "k4").idempotencyKey, consumerName) ∉ (runFrom Db.step newOrder
        [.handleEvent .paymentProcessed (some (sagaEvent "k2")) (.ofKey "" 2),
          .handleEvent .inventoryReservationFailed (some (sagaEvent "k3"))
            (.ofKey "" 3)]).processed := by
    decide +kernel
  obtain ⟨hpending, hchange, hcomp, hu, htext, hfresh⟩ := hrun
  obtain ⟨o, ho, hst⟩ := Option.map_eq_some_iff.mp hcomp
  have herr := store_handleEvent_of_refused (t := .paymentProcessed) (e := .invalidTransition)
    htext ⟨hfresh, 10, o, hu, ho, by rw [hst]; rfl⟩ (.ofKey "" 4)
  exact ⟨_, hpending, ⟨[], _, _, [_], rfl, hchange⟩, hcomp, hu, herr, fun h => h.accepted _ herr⟩

end Choreography.OrderService
