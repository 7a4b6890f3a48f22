import Choreography.OrderRuns

/-!
# What a client of the Order service sees

GetOrder reads one row of `orders` at any time between the operations of the service. For a
client the service is a table of orders that are written once, by the CreateOrder call
that the service accepted, and whose status moves along the state machine : a read finds
exactly the orders that were created before it (`reads_created`), and two reads of an order
differ in the status at most, and there by transitions (`reads_monotone`).
-/

namespace Choreography.OrderService

/-! ## GetOrder -/

/-- The text of a status. -/
def Status.text : Status → String
  | .pending => "PENDING"
  | .paymentOk => "PAYMENT_OK"
  | .confirmed => "CONFIRMED"
  | .compensating => "COMPENSATING"
  | .cancelled => "CANCELLED"

inductive GetError
  | notFound
  /-- The database refuses the text of the id. -/
  | invalidUuid
  deriving DecidableEq

/-- Load an order by id. -/
def Store.getOrder (db : Db) (id : String) : Except GetError Order :=
  match uuidIn id with
  | none => .error .invalidUuid
  | some u =>
    match db.orders.find? u with
    | some o => .ok o
    | none => .error .notFound

inductive Code
  | notFound
  | internal
  deriving DecidableEq

structure GetOrderResponse where
  orderId : String
  status : String
  sku : String
  quantity : Int4
  amount : Float64
  deriving DecidableEq

def Order.response (o : Order) : GetOrderResponse :=
  ⟨uuidOut o.id, o.status.text, o.sku, o.quantity, o.amount⟩

def Server.getOrder (db : Db) (orderId : String) : Except Code GetOrderResponse :=
  match Store.getOrder db orderId with
  | .error .notFound => .error .notFound
  | .error .invalidUuid => .error .internal
  | .ok o => .ok o.response

theorem getOrder_of_find? {db : Db} {id : String} {u : Uuid} (hu : uuidIn id = some u) {o : Order}
    (ho : db.orders.find? u = some o) : Server.getOrder db id = .ok o.response := by
  simp only [Server.getOrder, Store.getOrder, hu, ho]

theorem getOrder_eq_ok {db : Db} {id : String} {r : GetOrderResponse}
    (h : Server.getOrder db id = .ok r) :
    ∃ u o, uuidIn id = some u ∧ db.orders.find? u = some o ∧ r = o.response := by
  cases hu : uuidIn id with
  | none => simp [Server.getOrder, Store.getOrder, hu] at h
  | some u =>
    cases ho : db.orders.find? u with
    | none => simp [Server.getOrder, Store.getOrder, hu, ho] at h
    | some o =>
      rw [getOrder_of_find? hu ho, Except.ok.injEq] at h
      exact ⟨u, o, rfl, ho, h.symm⟩

/-! ## Orders along a run -/

/-- One transition of the state machine. -/
def Moves (cur next : Status) : Prop := ∃ t, (apply cur t).2 = none ∧ (apply cur t).1.next = next

/-- A row keeps everything but its status, which moves along the state machine. -/
def Grows (o o' : Order) : Prop :=
  o' = { o with status := o'.status } ∧ Relation.ReflTransGen Moves o.status o'.status

theorem Grows.refl (o : Order) : Grows o o := ⟨rfl, .refl⟩

theorem Grows.trans {o o' o'' : Order} (h : Grows o o') (h' : Grows o' o'') : Grows o o'' := by
  refine ⟨?_, h.2.trans h'.2⟩
  rw [h'.1, h.1]

/-- The operation is a CreateOrder that is accepted, with the row that it inserts. -/
def Accepts (db : Db) (o : Order) : Op → Prop
  | .createOrder orderId customerId sku quantity amount stamp =>
    uuidIn orderId = some o.id ∧ o = ⟨o.id, customerId, sku, quantity, amount, .pending⟩ ∧
      ∃ db', OrderService.createOrder db orderId stamp customerId sku quantity amount = .ok db'
  | _ => False

variable {db : Db} {u : Uuid}

/-- What an operation can do to an order. -/
theorem find?_step (db : Db) (op : Op) (u : Uuid) :
    (db.step op).orders.find? u = db.orders.find? u ∨
      (∃ o, db.orders.find? u = none ∧ (db.step op).orders.find? u = some o ∧ o.id = u ∧
        Accepts db o op) ∨
      ∃ o o', db.orders.find? u = some o ∧ (db.step op).orders.find? u = some o' ∧
        Grows o o' := by
  cases op with
  | createOrder orderId customerId sku quantity amount stamp =>
    simp only [Db.step]
    split
    next db' hok =>
      obtain ⟨-, v, hv, hins, -, -⟩ := Store.createOrder_eq_ok hok
      rw [Table.find?_of_insert hins]
      split_ifs with hu
      · obtain rfl : u = v := hu
        refine Or.inr (Or.inl ⟨_, (Table.insert_eq_some.mp hins).1, rfl, rfl, hv, rfl, ?_⟩)
        exact ⟨db', hok⟩
      · exact Or.inl rfl
    next => exact Or.inl rfl
  | handleEvent topic value stamp =>
    simp only [Db.step]
    cases ht : topicTrigger topic with
    | none => exact Or.inl (by simp [handleEvent, ht])
    | some t =>
    cases value with
    | none => exact Or.inl (by simp [handleEvent, ht])
    | some env =>
      obtain ⟨hdb, -⟩ | ⟨hdb, -⟩ | ⟨hdb, -⟩ | ⟨-, v, o, h⟩ := handleEvent_cases db ht env stamp
      · exact Or.inl (by rw [hdb])
      · exact Or.inl (by rw [hdb])
      · exact Or.inl (by rw [hdb])
      · rw [h.find?]
        split_ifs with hu
        · subst hu
          exact Or.inr (Or.inr ⟨o, _, h.order, rfl, rfl, .single ⟨t, h.accepted, rfl⟩⟩)
        · exact Or.inl rfl
  | _ => exact Or.inl rfl

/-- An order stays, and grows. -/
theorem grows_run {o : Order} (ho : db.orders.find? u = some o) (ops : List Op) :
    ∃ o', (runFrom Db.step db ops).orders.find? u = some o' ∧ Grows o o' := by
  refine invariant_runFrom
    (I := fun db' : Db => ∃ o', db'.orders.find? u = some o' ∧ Grows o o') ?_ ops
    ⟨o, ho, .refl o⟩
  rintro db' op ⟨o', ho', hgrows⟩
  obtain heq | ⟨_, hnone, -⟩ | ⟨o₁, o₂, h₁, h₂, hstep⟩ := find?_step db' op u
  · exact ⟨o', heq.trans ho', hgrows⟩
  · exact absurd (hnone.symm.trans ho') (by simp)
  · obtain rfl : o₁ = o' := Option.some.inj (h₁.symm.trans ho')
    exact ⟨o₂, h₂, hgrows.trans hstep⟩

/-! ## Reads -/

/-- After a read that found an order, every read finds it, with the same contents and a
status further along the state machine. -/
theorem reads_monotone (db : Db) (ops : List Op) (id : String) (r : GetOrderResponse)
    (h : Server.getOrder db id = .ok r) :
    ∃ r' st st', Server.getOrder (runFrom Db.step db ops) id = .ok r' ∧
      r' = { r with status := r'.status } ∧ r.status = st.text ∧ r'.status = st'.text ∧
      Relation.ReflTransGen Moves st st' := by
  obtain ⟨u, o, hu, ho, rfl⟩ := getOrder_eq_ok h
  obtain ⟨o', ho', heq, hmoves⟩ := grows_run ho ops
  refine ⟨o'.response, o.status, o'.status, getOrder_of_find? hu ho', ?_, rfl, rfl, hmoves⟩
  rw [heq]
  rfl

/-- A new order is read as PENDING, and again after its payment is processed. -/
theorem reads_monotone_paid :
    Server.getOrder newOrder (uuidOut 10) =
        .ok ⟨uuidOut 10, "PENDING", "SKU-1", .lit 1, .lit 5⟩ ∧
      ∃ r' st st', Server.getOrder (runFrom Db.step newOrder
          [.handleEvent .paymentProcessed (some (sagaEvent "k2")) (.ofKey "" 2)]) (uuidOut 10) =
            .ok r' ∧
        r' = ⟨uuidOut 10, r'.status, "SKU-1", .lit 1, .lit 5⟩ ∧ "PENDING" = Status.text st ∧
        r'.status = st'.text ∧ Relation.ReflTransGen Moves st st' := by
  have h : Server.getOrder newOrder (uuidOut 10) =
      .ok ⟨uuidOut 10, "PENDING", "SKU-1", .lit 1, .lit 5⟩ := by
    decide +kernel
  exact ⟨h, reads_monotone newOrder _ (uuidOut 10) _ h⟩

/-- The operation at some point of the run is a CreateOrder that was accepted with the
row `o`. -/
def Created (db : Db) (ops : List Op) (o : Order) : Prop :=
  ∃ pre op post, ops = pre ++ op :: post ∧ Accepts (runFrom Db.step db pre) o op

theorem Created.append {ops : List Op} {o : Order} (h : Created db ops o) (op : Op) :
    Created db (ops ++ [op]) o := by
  obtain ⟨pre, op', post, rfl, hacc⟩ := h
  exact ⟨pre, op', post ++ [op], by simp, hacc⟩

theorem Accepts.find? {o : Order} {op : Op} (h : Accepts db o op) :
    (db.step op).orders.find? o.id = some o := by
  cases op with
  | createOrder orderId customerId sku quantity amount stamp =>
    obtain ⟨hid, ho, db', hok⟩ := h
    obtain ⟨-, u, hu, hins, -, -⟩ := Store.createOrder_eq_ok hok
    obtain rfl : o.id = u := Option.some.inj (hid.symm.trans hu)
    simp only [Db.step, hok]
    rw [Table.find?_of_insert hins, if_pos rfl]
    exact congrArg some ho.symm
  | _ => exact absurd h id

theorem Accepts.pending {o : Order} {op : Op} (h : Accepts db o op) : o.status = .pending := by
  cases op with
  | createOrder orderId customerId sku quantity amount stamp => rw [h.2.1]
  | _ => exact absurd h id

/-- An accepted call is found, grown, in the table. -/
theorem Created.exists_find? {ops : List Op} {o : Order} (h : Created db ops o) :
    o.status = .pending ∧
      ∃ o', (runFrom Db.step db ops).orders.find? o.id = some o' ∧ Grows o o' := by
  obtain ⟨pre, op, post, rfl, hacc⟩ := h
  refine ⟨hacc.pending, ?_⟩
  rw [runFrom_append, runFrom_cons]
  exact grows_run hacc.find? post

/-- A row comes from an accepted call. -/
theorem exists_created (ops : List Op) {o : Order}
    (ho : (runFrom Db.step .empty ops).orders.find? u = some o) :
    ∃ o₀, Created .empty ops o₀ ∧ o₀.id = u ∧ Grows o₀ o := by
  induction ops using List.reverseRecOn generalizing o with
  | nil => simp [Db.empty] at ho
  | append_singleton ops op ih =>
    rw [runFrom_append, runFrom_cons, runFrom_nil] at ho
    obtain heq | ⟨o', -, ho', hid, hacc⟩ | ⟨o₁, o₂, h₁, h₂, hstep⟩ :=
      find?_step (runFrom Db.step .empty ops) op u
    · obtain ⟨o₀, hc, hid, hgrows⟩ := ih (heq.symm.trans ho)
      exact ⟨o₀, hc.append op, hid, hgrows⟩
    · obtain rfl : o' = o := Option.some.inj (ho'.symm.trans ho)
      exact ⟨o', ⟨ops, op, [], rfl, hacc⟩, hid, .refl o'⟩
    · obtain rfl : o₂ = o := Option.some.inj (h₂.symm.trans ho)
      obtain ⟨o₀, hc, hid, hgrows⟩ := ih h₁
      exact ⟨o₀, hc.append op, hid, hgrows.trans hstep⟩

/-- A CreateOrder is accepted for an id once. -/
theorem Created.unique {ops : List Op} {o o' : Order} (h : Created db ops o)
    (h' : Created db ops o') (hid : o'.id = o.id) : o' = o := by
  obtain ⟨hst, o₁, ho₁, heq, -⟩ := h.exists_find?
  obtain ⟨hst', o₂, ho₂, heq', -⟩ := h'.exists_find?
  rw [hid] at ho₂
  obtain rfl : o₁ = o₂ := Option.some.inj (ho₁.symm.trans ho₂)
  have hsame : ({ o with status := o₁.status } : Order) = { o' with status := o₁.status } :=
    heq.symm.trans heq'
  have hkept := congrArg (fun x : Order => ({ x with status := .pending } : Order)) hsame.symm
  calc o' = { o' with status := .pending } := by rw [← hst']
    _ = { o with status := .pending } := hkept
    _ = o := by rw [← hst]

/-- GetOrder answers with the order that was created under the id, with NotFound if none
was, and with an internal error if the id is not one. -/
theorem reads_created (ops : List Op) (id : String) :
    (uuidIn id = none ∧ Server.getOrder (runFrom Db.step .empty ops) id = .error .internal) ∨
      (∃ u, uuidIn id = some u ∧ (∀ o, Created .empty ops o → o.id ≠ u) ∧
        Server.getOrder (runFrom Db.step .empty ops) id = .error .notFound) ∨
      ∃ o st, Created .empty ops o ∧ uuidIn id = some o.id ∧
        (∀ o', Created .empty ops o' → o'.id = o.id → o' = o) ∧
        Server.getOrder (runFrom Db.step .empty ops) id =
          .ok { o.response with status := Status.text st } ∧
        Relation.ReflTransGen Moves .pending st := by
  cases hu : uuidIn id with
  | none => exact Or.inl ⟨rfl, by simp [Server.getOrder, Store.getOrder, hu]⟩
  | some u =>
    right
    cases ho : (runFrom Db.step .empty ops).orders.find? u with
    | none =>
      refine Or.inl ⟨u, rfl, ?_, by simp [Server.getOrder, Store.getOrder, hu, ho]⟩
      rintro o hc rfl
      obtain ⟨-, o', ho', -⟩ := hc.exists_find?
      exact absurd (ho.symm.trans ho') (by simp)
    | some o =>
      obtain ⟨o₀, hc, rfl, heq, hmoves⟩ := exists_created ops ho
      refine Or.inr ⟨o₀, o.status, hc, rfl, fun o' hc' hid => hc.unique hc' hid, ?_, ?_⟩
      · rw [getOrder_of_find? hu ho, heq]
        rfl
      · rw [← hc.exists_find?.1]
        exact hmoves

end Choreography.OrderService
