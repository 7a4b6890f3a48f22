import Choreography.Refunds
import Choreography.Rest

/-!
# Completion

A run may stand still for ever : a relay may publish a row again, a consumer may crash and
handle a message once more. The steps that are none of these are `Productive`. They end :
what is still to do (`work`) is a number that every productive step lowers, and that no
saga raises by more than the one event it commits. They do not end early : where no
productive step is left, the system is at rest.

So every run in which no call of ReserveStock was lost can be completed, by any schedule
of productive steps, and leaves no residue (`completed_or_productive`).
-/

namespace Choreography

/-! ## What is left of a saga -/

namespace Saga

/-- The steps that a saga which has an order can take at most. -/
def todo (s : Saga) : ℕ :=
  (if s.payment = none then 2 else if s.payment = some .processed then 1 else 0) +
    (if s.verdict = none then 1 else 0) +
    [OrderService.Trigger.paymentProcessed, .paymentFailed, .inventoryReserved,
      .inventoryReservationFail, .paymentRefunded].countP fun t => s.seen t = false

variable {s s' : Saga}

theorem Step.todo_lt (h : Step s s') (ho : s.order ≠ none) : s'.todo < s.todo := by
  cases h with
  | create hnone => exact absurd hnone ho
  | charge ho' hp hst =>
    rcases hst with rfl | rfl <;> simp [todo, hp]
  | decide v hp hv => simp [todo, hv]
  | refund hp hv => simp [todo, hp]
  | deliver t cur ho' hpub hnew hok =>
    unfold todo
    refine Nat.add_lt_add_left ?_ _
    cases t <;> simp [List.countP_cons, hnew, Function.update_apply]

theorem Step.todo_le (h : Step s s') : s'.todo ≤ s.todo := by
  by_cases ho : s.order = none
  · cases h with
    | create => exact le_refl _
    | charge ho' => exact absurd ho ho'
    | decide v hp hv => simp [todo, hv]
    | refund hp hv => simp [todo, hp]
    | deliver t cur ho' => simp [ho] at ho'
  · exact (h.todo_lt ho).le

end Saga

namespace System

open PaymentService (PyText noText)

variable {s : System} {u : Uuid} {l : Label} {stock : InventoryService.Stock}

/-! ## Productive steps -/

/-- A step that takes the system further : no row is published twice, no message handled
twice, and a call fails only when its request is lost. -/
def Productive (s : System) : Label → Prop
  | .publish svc id => ∃ row, (s.outbox svc).find? id = some row ∧ row.record ∉ s.log
  | .markPublished svc id => ∃ row, (s.outbox svc).find? id = some row ∧
      row.status = .pending ∧ row.record ∈ s.log
  | .orderHandle r stamp acked => r ∈ s.log ∧ r.topic ∈ OrderService.consumedTopics ∧
      (.order, r) ∉ s.handled ∧ s.Fresh .order stamp ∧ acked = true ∧
      (OrderService.handleEvent s.order r.topic (some r.value) stamp).err = none
  | .paymentHandle r _ stamp => r ∈ s.log ∧ r.topic ∈ PaymentService.consumedTopics ∧
      (.payment, r) ∉ s.handled ∧ s.working = none ∧ s.Fresh .payment stamp
  | .call => ∃ r req, s.working = some ⟨r, .reserve req⟩
  | .serve req _ stamp => req ∈ s.requests ∧ s.Fresh .inventory stamp
  | .reply => ∃ r req, s.working = some ⟨r, .calling req⟩ ∧ req ∈ s.replies
  | .fail => ∃ r req, s.working = some ⟨r, .calling req⟩ ∧ req ∉ s.replies ∧
      req ∉ s.requests
  | .commitOffset => ∃ r, s.working = some ⟨r, .finished⟩
  | .inventoryHandle r stamp acked => r ∈ s.log ∧ r.topic ∈ InventoryService.consumedTopics ∧
      (.inventory, r) ∉ s.handled ∧ s.Fresh .inventory stamp ∧ acked = true
  | .createOrder .. | .markFailed .. | .drop _ | .crash => False

theorem Productive.lossless (h : s.Productive l) : s.Lossless l := by
  cases l with
  | drop req => exact h.elim
  | crash => exact h.elim
  | _ => trivial

theorem Productive.acknowledged (h : s.Productive l) : s.Acknowledged l := by
  cases l with
  | markPublished svc id =>
    obtain ⟨row, hrow, -, hlog⟩ := h
    intro row' hrow'
    rwa [Option.some.inj (hrow'.symm.trans hrow)]
  | _ => trivial

/-! ## What is left to do -/

/-- A service has still to handle the message. Payment's consumer is not counted for the
message that it is handling. -/
def Due (s : System) (svc : Service) (r : Record) : Prop :=
  r.topic ∈ svc.consumes ∧ (svc, r) ∉ s.handled ∧
    ¬(svc = .payment ∧ s.working.map Handler.record = some r)

instance (s : System) (svc : Service) (r : Record) : Decidable (s.Due svc r) :=
  inferInstanceAs (Decidable (_ ∧ _))

/-- What is left to do for a message at a service. -/
def dueWork (s : System) (svc : Service) (r : Record) : ℕ := if s.Due svc r then 2 else 0

/-- What is left to do for an event : publish it, mark its row, and handle it wherever it is
due. -/
def rowWork (s : System) (row : OutboxRow) : ℕ :=
  (if row.record ∈ s.log then 0 else 1) + (if row.status = .pending then 1 else 0) +
    (s.dueWork .order row.record + s.dueWork .payment row.record +
      s.dueWork .inventory row.record)

def outboxWork (s : System) : ℕ :=
  (s.outbox .order).sum s.rowWork + (s.outbox .payment).sum s.rowWork +
    (s.outbox .inventory).sum s.rowWork

/-- What is left of the handling of a message by Payment, with its call. -/
def stageWork : Option Handler → ℕ
  | none => 0
  | some ⟨_, .reserve _⟩ => 4
  | some ⟨_, .calling _⟩ => 2
  | some ⟨_, .finished⟩ => 1

/-- The steps that the sagas can take at most. -/
def backlog (s : System) : ℕ := s.order.orders.sum fun o => (s.facts.saga o.id).todo

/-- What is left to do for the sagas and their events. A step of a saga commits one event,
whose handling is less work than the step is counted for. -/
def load (s : System) : ℕ := 20 * s.backlog + s.outboxWork

/-- What is left to do. -/
def work (s : System) : ℕ := s.load + stageWork s.working + s.requests.length

theorem dueWork_le (s : System) (svc : Service) (r : Record) : s.dueWork svc r ≤ 2 := by
  unfold dueWork
  split_ifs <;> omega

theorem rowWork_le (s : System) (row : OutboxRow) : s.rowWork row ≤ 8 := by
  have horder := s.dueWork_le .order row.record
  have hpayment := s.dueWork_le .payment row.record
  have hinventory := s.dueWork_le .inventory row.record
  unfold rowWork
  split_ifs <;> omega

/-! ## The sagas after a step -/

/-- The ids of the orders. -/
def ids (s : System) : List Uuid := s.order.orders.rows.map OrderService.Order.id

theorem mem_ids_iff : u ∈ s.ids ↔ (s.facts.saga u).order ≠ none := by
  have hnone : (s.facts.saga u).order = none ↔ s.order.orders.find? u = none :=
    Option.map_eq_none_iff
  rw [ne_eq, hnone, Table.find?_eq_none]
  simp [ids]

theorem backlog_eq (s : System) : s.backlog = (s.ids.map fun u => (s.facts.saga u).todo).sum := by
  rw [ids, List.map_map]
  rfl

/-- Only CreateOrder adds an order. -/
theorem Inv.ids_step (h : s.Inv) (py : PyText)
    (hl : ∀ req orderId stamp, l ≠ .createOrder req orderId stamp) :
    (System.step py s l).ids = s.ids := by
  by_cases hw : l.commits = some .order
  · cases l with
    | createOrder req orderId stamp => exact absurd rfl (hl req orderId stamp)
    | orderHandle r stamp acked =>
      rcases step_orderHandle h py r stamp acked with heq | ⟨-, heq⟩ |
        ⟨db, -, -, -, -, ⟨t, u, o, -, -, horders, -⟩, heq⟩ <;> rw [heq]
      · rfl
      · have hrows : db.orders = OrderService.setStatus s.order.orders u _ := horders
        simp only [ids, hrows, OrderService.setStatus, Table.rows_update, List.map_map]
        refine List.map_congr_left fun o' _ => ?_
        simp only [Function.comp_apply]
        split_ifs <;> rfl
    | _ => simp [Label.commits] at hw
  · rw [ids, order_frame py s hw]
    rfl

theorem Inv.todo_step (h : s.Inv) (py : PyText) (l : Label) (u : Uuid) :
    ((System.step py s l).facts.saga u).todo ≤ (s.facts.saga u).todo := by
  rcases h.step_saga py l u with heq | hstep
  · rw [heq]
  · exact hstep.todo_le

theorem Inv.backlog_le (h : s.Inv) (py : PyText)
    (hl : ∀ req orderId stamp, l ≠ .createOrder req orderId stamp) :
    (System.step py s l).backlog ≤ s.backlog := by
  rw [backlog_eq, backlog_eq, h.ids_step py hl]
  exact List.sum_le_sum fun u _ => h.todo_step py l u

theorem Inv.backlog_lt (h : s.Inv) (py : PyText)
    (hl : ∀ req orderId stamp, l ≠ .createOrder req orderId stamp) (hu : u ∈ s.ids)
    (hne : (System.step py s l).facts.saga u ≠ s.facts.saga u) :
    (System.step py s l).backlog < s.backlog := by
  rw [backlog_eq, backlog_eq, h.ids_step py hl]
  refine List.sum_lt_sum _ _ (fun u _ => h.todo_step py l u) ⟨u, hu, ?_⟩
  exact ((h.step_saga py l u).resolve_left hne).todo_lt (mem_ids_iff.mp hu)

/-! ## The outboxes after a step -/

theorem outbox_frame (py : PyText) (s : System) {svc : Service} (hw : l.writes ≠ some svc) :
    (step py s l).outbox svc = s.outbox svc := by
  cases svc with
  | order => exact congrArg OrderService.Db.outbox ((step_frame py s l).1 hw)
  | payment => exact congrArg PaymentService.Db.outbox ((step_frame py s l).2.1 hw)
  | inventory => exact congrArg InventoryService.Db.outbox ((step_frame py s l).2.2 hw)

theorem events_facts (s : System) (svc : Service) :
    s.facts.events svc = eventsOf (s.outbox svc) := by
  cases svc <;> rfl

/-- A saga without an order has no events. -/
theorem Inv.topics_of_not_mem_ids (h : s.Inv) (hu : u ∉ s.ids) (svc : Service) :
    (s.facts.saga u).topics svc = [] := by
  have ho : (s.facts.saga u).order = none := by
    by_contra ho
    exact hu (mem_ids_iff.mpr ho)
  have hinv := h.consistent.inv u
  have hp : (s.facts.saga u).payment = none := by
    by_contra hp
    exact hinv.created hp ho
  have hv : (s.facts.saga u).verdict = none := h.consistent.verdict_of_order ho
  cases svc with
  | order => simp [Saga.topics, ho]
  | payment => simp [Saga.topics, hp]
  | inventory => simp [Saga.topics, hv]

/-- A step that changes no saga adds no event. -/
theorem Inv.outbox_of_saga (h : s.Inv) (py : PyText)
    (hc : ∀ req orderId stamp, l ≠ .createOrder req orderId stamp)
    (hm : ∀ svc id, l ≠ .markPublished svc id ∧ l ≠ .markFailed svc id)
    (hsaga : ∀ u ∈ s.ids, (System.step py s l).facts.saga u = s.facts.saga u) (svc : Service) :
    (System.step py s l).outbox svc = s.outbox svc := by
  rcases h.enqueued_step py hm svc with heq | ⟨row, -, hrows⟩
  · exact heq
  · exfalso
    have h' := h.step py l
    have hevents : eventsOf ((System.step py s l).outbox svc) =
        eventsOf (s.outbox svc) ++ [row.record] := by
      rw [eventsOf, hrows, List.map_append]
      rfl
    have hmem : row.record ∈ (System.step py s l).facts.events svc :=
      mem_events_iff.mpr (hevents ▸ List.mem_append_right _ (List.mem_singleton_self _))
    obtain ⟨u, hu⟩ := h'.consistent.saga _ ⟨svc, hmem⟩
    have htopics : ((System.step py s l).facts.saga u).topics svc =
        (s.facts.saga u).topics svc ++ [row.record.topic] := by
      rw [← h'.consistent.topics, ← h.consistent.topics, events_facts, events_facts, hevents,
        topicsOf_append_of_eq hu]
    by_cases hids : u ∈ s.ids
    · rw [hsaga u hids] at htopics
      simpa using congrArg List.length htopics
    · rw [h'.topics_of_not_mem_ids (by rwa [h.ids_step py hc])] at htopics
      simp at htopics

/-! ## The work after a step -/

/-- What is due after a step was due before, and no message is lost from the topics. -/
structure Narrows (s s' : System) : Prop where
  log : s.log ⊆ s'.log
  due : ∀ svc r, s'.Due svc r → s.Due svc r

theorem Narrows.dueWork_le {s' : System} (h : Narrows s s') (svc : Service) (r : Record) :
    s'.dueWork svc r ≤ s.dueWork svc r := by
  unfold dueWork
  by_cases hdue : s'.Due svc r
  · rw [if_pos hdue, if_pos (h.due svc r hdue)]
  · rw [if_neg hdue]
    exact Nat.zero_le _

theorem Narrows.unpublished_le {s' : System} (h : Narrows s s') (r : Record) :
    (if r ∈ s'.log then 0 else 1) ≤ if r ∈ s.log then 0 else 1 := by
  by_cases hlog : r ∈ s.log
  · rw [if_pos hlog, if_pos (h.log hlog)]
  · rw [if_neg hlog]
    split_ifs <;> omega

theorem Narrows.rowWork_le {s' : System} (h : Narrows s s') (row : OutboxRow) :
    s'.rowWork row ≤ s.rowWork row :=
  Nat.add_le_add (Nat.add_le_add_right (h.unpublished_le row.record) _)
    (Nat.add_le_add (Nat.add_le_add (h.dueWork_le .order _) (h.dueWork_le .payment _))
      (h.dueWork_le .inventory _))

/-- The work on a message that was due to a service and no longer is. -/
theorem Narrows.rowWork_add_le {s' : System} (h : Narrows s s') {row : OutboxRow} {svc : Service}
    (hdue : s.Due svc row.record) (hnot : ¬s'.Due svc row.record) :
    s'.rowWork row + 2 ≤ s.rowWork row := by
  have hold : s.dueWork svc row.record = 2 := if_pos hdue
  have hnew : s'.dueWork svc row.record = 0 := if_neg hnot
  have hlog := h.unpublished_le row.record
  have horder := h.dueWork_le .order row.record
  have hpayment := h.dueWork_le .payment row.record
  have hinventory := h.dueWork_le .inventory row.record
  unfold rowWork
  cases svc <;> omega

theorem sum_enqueued_le {s' : System} (h : Narrows s s') {ob ob' : Outbox} (he : Enqueued ob ob') :
    ob'.sum s'.rowWork ≤ ob.sum s.rowWork + 8 := by
  have hle := Table.sum_le_sum (t := ob) fun row _ => h.rowWork_le row
  rcases he with rfl | ⟨row, -, hrows⟩
  · omega
  · have hnew := s'.rowWork_le row
    simp only [Table.sum] at hle
    simp only [Table.sum, hrows, List.map_append, List.sum_append, List.map_singleton,
      List.sum_singleton]
    omega

/-- A transaction adds one event at most. -/
theorem Inv.outboxWork_le (h : s.Inv) (py : PyText)
    (hm : ∀ svc id, l ≠ .markPublished svc id ∧ l ≠ .markFailed svc id)
    (hn : Narrows s (System.step py s l)) :
    (System.step py s l).outboxWork ≤ s.outboxWork + 8 := by
  have hsame : ∀ svc, l.writes ≠ some svc →
      ((System.step py s l).outbox svc).sum (System.step py s l).rowWork ≤
        (s.outbox svc).sum s.rowWork := by
    intro svc hw
    rw [outbox_frame py s hw]
    exact Table.sum_le_sum fun row _ => hn.rowWork_le row
  have hone := fun svc => sum_enqueued_le hn (h.enqueued_step py hm svc)
  unfold outboxWork
  have horder := hone .order
  have hpayment := hone .payment
  have hinventory := hone .inventory
  cases hw : l.writes with
  | none =>
    have h1 := hsame .order (by simp [hw])
    have h2 := hsame .payment (by simp [hw])
    have h3 := hsame .inventory (by simp [hw])
    omega
  | some svc =>
    cases svc with
    | order =>
      have h2 := hsame .payment (by simp [hw])
      have h3 := hsame .inventory (by simp [hw])
      omega
    | payment =>
      have h1 := hsame .order (by simp [hw])
      have h3 := hsame .inventory (by simp [hw])
      omega
    | inventory =>
      have h1 := hsame .order (by simp [hw])
      have h2 := hsame .payment (by simp [hw])
      omega

/-- The work where no event is new falls by what the work on one row falls by. -/
theorem Narrows.outboxWork_add_le {s' : System} (h : Narrows s s')
    (hsame : ∀ svc, s'.outbox svc = s.outbox svc) {svc : Service} {row : OutboxRow}
    (hrow : row ∈ (s.outbox svc).rows) {n : ℕ} (hn : s'.rowWork row + n ≤ s.rowWork row) :
    s'.outboxWork + n ≤ s.outboxWork := by
  have hle := fun svc => Table.sum_le_sum (t := s.outbox svc) fun row _ => h.rowWork_le row
  have hlt := Table.sum_add_le_sum (t := s.outbox svc) (fun row _ => h.rowWork_le row) hrow hn
  have horder := hle .order
  have hpayment := hle .payment
  have hinventory := hle .inventory
  simp only [outboxWork, hsame]
  cases svc <;> omega

/-- What a transaction does to the work : a saga that takes a step pays for the event it
commits, and a message that is no longer due to a service is work done. -/
structure Lightens (s s' : System) : Prop where
  load : s'.load ≤ s.load
  saga : ∀ u ∈ s.ids, s'.facts.saga u ≠ s.facts.saga u → s'.load + 12 ≤ s.load
  due : ∀ svc r, s.facts.Committed r → s.Due svc r → ¬s'.Due svc r → s'.load + 2 ≤ s.load

theorem Inv.lightens (h : s.Inv) (py : PyText)
    (hc : ∀ req orderId stamp, l ≠ .createOrder req orderId stamp)
    (hm : ∀ svc id, l ≠ .markPublished svc id ∧ l ≠ .markFailed svc id)
    (hn : Narrows s (System.step py s l)) : Lightens s (System.step py s l) := by
  have hbacklog := h.backlog_le py hc
  by_cases hsaga : ∀ u ∈ s.ids, (System.step py s l).facts.saga u = s.facts.saga u
  · have hsame := h.outbox_of_saga py hc hm hsaga
    have houtbox : (System.step py s l).outboxWork ≤ s.outboxWork := by
      have hle := fun svc => Table.sum_le_sum (t := s.outbox svc) fun row _ => hn.rowWork_le row
      have horder := hle .order
      have hpayment := hle .payment
      have hinventory := hle .inventory
      simp only [outboxWork, hsame]
      omega
    refine ⟨?_, fun u hu hne => absurd (hsaga u hu) hne, fun svc r hr hdue hnot => ?_⟩
    · unfold System.load
      omega
    · obtain ⟨producer, hmem⟩ := hr
      obtain ⟨row, hrow, rfl⟩ := List.mem_map.mp (mem_events_iff.mp hmem)
      have hlt := hn.outboxWork_add_le hsame hrow (hn.rowWork_add_le hdue hnot)
      unfold System.load
      omega
  · push Not at hsaga
    obtain ⟨u, hu, hne⟩ := hsaga
    have hlt := h.backlog_lt py hc hu hne
    have houtbox := h.outboxWork_le py hm hn
    have hload : (System.step py s l).load + 12 ≤ s.load := by
      unfold System.load
      omega
    exact ⟨by omega, fun _ _ _ => hload, fun _ _ _ _ _ => by omega⟩

/-! ## No handler is stuck -/

/-- The cancellations that Order publishes name no reservation. -/
def Unnamed (s : System) : Prop :=
  ∀ r ∈ s.order.events, r.topic = .orderCancelled →
    InventoryService.dataValue r.value.data "reservationId" "" = .ok ""

theorem Inv.unnamed_step (h : s.Inv) (py : PyText) (l : Label) (hs : s.Unnamed) :
    (System.step py s l).Unnamed := by
  intro r hr htopic
  have hnew : ∀ {stamp : Stamp} {db : OrderService.Db} {ob : OutboxInsert}, r ∈ db.events →
      insertOutbox stamp s.order.outbox ob = .ok db.outbox →
      (ob.record.topic = .orderCancelled →
        InventoryService.dataValue ob.record.value.data "reservationId" "" = .ok "") →
      InventoryService.dataValue r.value.data "reservationId" "" = .ok "" := by
    intro stamp db ob hr hb hob
    rw [OrderService.Db.events, eventsOf_insertOutbox hb, List.mem_append,
      List.mem_singleton] at hr
    rcases hr with hr | rfl
    · exact hs r hr htopic
    · exact hob htopic
  by_cases hw : l.commits = some .order
  · cases l with
    | createOrder req orderId stamp =>
      rcases step_createOrder py s req orderId stamp with heq | ⟨db, -, hok, heq⟩ <;> rw [heq] at hr
      · exact hs r hr htopic
      · obtain ⟨-, u, -, -, -, hb⟩ := OrderService.createOrder_eq_ok hok
        exact hnew hr hb fun ht => Topic.noConfusion ht
    | orderHandle r' stamp acked =>
      rcases step_orderHandle h py r' stamp acked with heq | ⟨-, heq⟩ |
        ⟨db, -, hdb, -, -, -, heq⟩ <;> rw [heq] at hr
      · exact hs r hr htopic
      · exact hs r hr htopic
      · cases ht : OrderService.topicTrigger r'.topic with
        | none =>
          have hsame : db = s.order := by
            rw [← hdb]
            simp [OrderService.handleEvent, ht]
          exact hs r (hsame ▸ hr) htopic
        | some t =>
          have hcases := OrderService.handleEvent_cases s.order ht r'.value stamp
          rw [hdb] at hcases
          rcases hcases with ⟨hsame, -⟩ | ⟨hsame, -⟩ | ⟨hsame, -⟩ | ⟨-, u, o, ha⟩
          · exact hs r (hsame ▸ hr) htopic
          · exact hs r (hsame ▸ hr) htopic
          · exact hs r (hsame ▸ hr) htopic
          · have hob := ha.outbox
            split_ifs at hob
            · exact hnew hr hob fun _ => rfl
            · have hmem : r ∈ eventsOf db.outbox := hr
              rw [hob] at hmem
              exact hs r hmem htopic
    | _ => simp [Label.commits] at hw
  · have hframe : (System.step py s l).order.events = s.order.events := by
      by_cases hwr : l.writes = some .order
      · obtain ⟨id, hmark⟩ := exists_mark_of_writes hwr hw
        obtain ⟨ob, hob, heq⟩ := step_mark py s hmark
        rw [heq]
        exact hob
      · rw [(step_frame py s l).1 hwr]
    exact hs r (hframe ▸ hr) htopic

/-- Payment can handle every message that is published to it. -/
theorem Inv.exists_handle (h : s.Inv) (ha : s.Amounts) (py : PyText) {r : Record} (hr : r ∈ s.log)
    (ht : r.topic ∈ PaymentService.consumedTopics) (forceFailure : Bool) {stamp : Stamp}
    (hf : s.Fresh .payment stamp) :
    ∃ hd, PaymentService.handle py forceFailure s.payment r.topic r.value stamp = .ok hd := by
  have hcommitted := h.control.log r hr
  have hmem := h.consistent.mem_events hcommitted
  obtain ⟨u, hu⟩ := h.consistent.saga r hcommitted
  have htopic : r.topic = .orderCreated ∨ r.topic = .inventoryReservationFailed := by
    simpa [PaymentService.consumedTopics] using ht
  rcases htopic with htopic | htopic <;> rw [htopic] at hmem ⊢
  · obtain ⟨o, -, hdata⟩ := h.consistent.created r hmem htopic u hu
    rw [PaymentService.handle, PaymentService.handleOrderCreated_of_data hdata]
    exact PaymentService.exists_charge hu hf.2 _ _ _ _ _
  · refine PaymentService.exists_handleCompensation py (q := 0) (h.consistent.text r hcommitted) hu
      hf.2 ?_
    rw [ha.refused r hmem htopic, Option.bind_some, py.toFloat_zero]

/-- Inventory can handle every message that is published to it. -/
theorem Inv.exists_handleOrderCancelled (h : s.Inv) (hn : s.Unnamed) {r : Record} (hr : r ∈ s.log)
    (ht : r.topic ∈ InventoryService.consumedTopics) (stamp : Stamp) :
    ∃ x, InventoryService.handleOrderCancelled s.inventory stamp r.value r.traceparent = .ok x := by
  have htopic : r.topic = .orderCancelled := by
    simpa [InventoryService.consumedTopics] using ht
  have hcommitted := h.control.log r hr
  have hmem := h.consistent.mem_events hcommitted
  rw [htopic] at hmem
  obtain ⟨u, hu⟩ := h.consistent.saga r hcommitted
  have hv := (h.consistent.inv u).cancelled
    (h.consistent.cancelled_of_committed hcommitted htopic hu)
  exact InventoryService.exists_handleOrderCancelled (hn r hmem htopic) hu
    (h.consistent.unreserved u hv) stamp r.traceparent

/-! ## Productive steps are work done -/

/-- A step that handles a message, and leaves Payment's handler alone. -/
theorem narrows_of_handled {s' : System} (hlog : s.log ⊆ s'.log) (hhandled : s.handled ⊆ s'.handled)
    (hworking : s'.working.map Handler.record = s.working.map Handler.record) : Narrows s s' := by
  refine ⟨hlog, ?_⟩
  rintro svc r ⟨ht, hnot, hw⟩
  exact ⟨ht, fun hm => hnot (hhandled hm), by rwa [← hworking]⟩

theorem Productive.publish_lt {svc : Service} {id : Uuid} (hp : s.Productive (.publish svc id))
    (py : PyText) : (step py s (.publish svc id)).work < s.work := by
  obtain ⟨row, hrow, hlog⟩ := hp
  have hstep : step py s (.publish svc id) = { s with log := s.log ++ [row.record] } := by
    simp only [step, hrow]
  rw [hstep]
  have hn : Narrows s { s with log := s.log ++ [row.record] } :=
    narrows_of_handled (List.subset_append_left _ _) (List.Subset.refl _) rfl
  have hold : (if row.record ∈ s.log then 0 else 1) = 1 := if_neg hlog
  have hnew : (if row.record ∈ s.log ++ [row.record] then 0 else 1) = 0 := if_pos (by simp)
  have hlt := hn.outboxWork_add_le (n := 1) (fun svc => by cases svc <;> rfl)
    (Table.find?_eq_some.mp hrow).1 (by
      have horder := hn.dueWork_le .order row.record
      have hpayment := hn.dueWork_le .payment row.record
      have hinventory := hn.dueWork_le .inventory row.record
      simp only [rowWork, hold, hnew]
      omega)
  have hbacklog : System.backlog { s with log := s.log ++ [row.record] } = s.backlog := rfl
  simp only [work, System.load, hbacklog]
  omega

@[simp] theorem rowWork_setOutbox (s : System) (svc : Service) (ob : Outbox) :
    (s.setOutbox svc ob).rowWork = s.rowWork := by
  cases svc <;> rfl

theorem backlog_setOutbox {svc : Service} {ob : Outbox}
    (h : eventsOf ob = eventsOf (s.outbox svc)) : (s.setOutbox svc ob).backlog = s.backlog := by
  unfold System.backlog
  rw [facts_setOutbox h]
  cases svc <;> rfl

/-- A row that is marked as published is less work. -/
theorem sum_markPublished_lt {outbox : Outbox} {id : Uuid} {row : OutboxRow}
    (hrow : outbox.find? id = some row) (hst : row.status = .pending) :
    (Choreography.markPublished outbox id).sum s.rowWork + 1 ≤ outbox.sum s.rowWork := by
  have hsum : (Choreography.markPublished outbox id).sum s.rowWork =
      outbox.sum fun r => s.rowWork (if r.id = id then { r with status := .published } else r) := by
    rw [Table.sum, Choreography.markPublished, Table.rows_update, List.map_map]
    rfl
  have hmarked : ∀ r : OutboxRow,
      s.rowWork { r with status := .published } + (if r.status = .pending then 1 else 0) =
        s.rowWork r := by
    intro r
    simp only [rowWork, reduceCtorEq, if_false]
    omega
  obtain ⟨hmem, hid⟩ := Table.find?_eq_some.mp hrow
  rw [hsum]
  refine Table.sum_add_le_sum (fun r _ => ?_) hmem ?_
  · split_ifs
    · have := hmarked r
      omega
    · exact le_refl _
  · rw [if_pos hid, ← hmarked row, if_pos hst]

theorem Productive.markPublished_lt {svc : Service} {id : Uuid}
    (hp : s.Productive (.markPublished svc id)) (py : PyText) :
    (step py s (.markPublished svc id)).work < s.work := by
  obtain ⟨row, hrow, hst, -⟩ := hp
  have hlt := sum_markPublished_lt (s := s) hrow hst
  simp only [step, work, System.load, outboxWork, rowWork_setOutbox, working_setOutbox,
    requests_setOutbox, outbox_setOutbox, backlog_setOutbox (eventsOf_markPublished _ _)]
  cases svc <;> simp <;> omega

theorem Productive.orderHandle_lt (h : s.Inv) {r : Record} {stamp : Stamp} {acked : Bool}
    (hp : s.Productive (.orderHandle r stamp acked)) (py : PyText) :
    (System.step py s (.orderHandle r stamp acked)).work < s.work := by
  obtain ⟨hr, ht, hnot, hf, rfl, herr⟩ := hp
  have hstep : System.step py s (.orderHandle r stamp true) =
      { s with
        order := (OrderService.handleEvent s.order r.topic (some r.value) stamp).db
        handled := (.order, r) :: s.handled } := by
    simp only [System.step, if_pos (⟨hr, ht, hf⟩ : _ ∧ _ ∧ _), herr, and_self, if_true]
  have hn : Narrows s (System.step py s (.orderHandle r stamp true)) := by
    rw [hstep]
    exact narrows_of_handled (List.Subset.refl _) (List.subset_cons_self _ _) rfl
  have hlt := (h.lightens py (by simp) (by simp) hn).due .order r (h.control.log r hr)
    ⟨ht, hnot, by simp⟩ (by rw [hstep]; exact fun hd => hd.2.1 List.mem_cons_self)
  have hload : s.working = (System.step py s (.orderHandle r stamp true)).working ∧
      s.requests = (System.step py s (.orderHandle r stamp true)).requests := by
    rw [hstep]
    exact ⟨rfl, rfl⟩
  unfold work
  rw [← hload.1, ← hload.2]
  omega

theorem Productive.inventoryHandle_lt (h : s.Inv) (hu : s.Unnamed) {r : Record} {stamp : Stamp}
    {acked : Bool} (hp : s.Productive (.inventoryHandle r stamp acked)) (py : PyText) :
    (System.step py s (.inventoryHandle r stamp acked)).work < s.work := by
  obtain ⟨hr, ht, hnot, hf, rfl⟩ := hp
  obtain ⟨⟨outcome, db⟩, hok⟩ := h.exists_handleOrderCancelled hu hr ht stamp
  have hstep : System.step py s (.inventoryHandle r stamp true) =
      { s with inventory := db, handled := (.inventory, r) :: s.handled } := by
    simp only [System.step, if_pos (⟨hr, ht, hf⟩ : _ ∧ _ ∧ _), hok, if_true]
  have hn : Narrows s (System.step py s (.inventoryHandle r stamp true)) := by
    rw [hstep]
    exact narrows_of_handled (List.Subset.refl _) (List.subset_cons_self _ _) rfl
  have hlt := (h.lightens py (by simp) (by simp) hn).due .inventory r (h.control.log r hr)
    ⟨ht, hnot, by simp⟩ (by rw [hstep]; exact fun hd => hd.2.1 List.mem_cons_self)
  have hload : s.working = (System.step py s (.inventoryHandle r stamp true)).working ∧
      s.requests = (System.step py s (.inventoryHandle r stamp true)).requests := by
    rw [hstep]
    exact ⟨rfl, rfl⟩
  unfold work
  rw [← hload.1, ← hload.2]
  omega

/-- Payment starts on a message : if it goes on to call ReserveStock, a saga has taken a
step. -/
theorem Productive.paymentHandle_lt (h : s.Inv) (ha : s.Amounts) {r : Record}
    {forceFailure : Bool} {stamp : Stamp} (hp : s.Productive (.paymentHandle r forceFailure stamp))
    (py : PyText) : (System.step py s (.paymentHandle r forceFailure stamp)).work < s.work := by
  obtain ⟨hr, ht, hnot, hw, hf⟩ := hp
  have hcommitted := h.control.log r hr
  obtain ⟨hd, hok⟩ := h.exists_handle ha py hr ht forceFailure hf
  have hstep : System.step py s (.paymentHandle r forceFailure stamp) =
      { s with payment := hd.db, working := goOn r hd.next } := by
    simp only [System.step, if_pos (⟨hr, ht, hw, hf⟩ : _ ∧ _ ∧ _ ∧ _), hok]
  have hdue : s.Due .payment r := ⟨ht, hnot, by simp [hw]⟩
  have hn : Narrows s (System.step py s (.paymentHandle r forceFailure stamp)) := by
    rw [hstep]
    refine ⟨List.Subset.refl _, ?_⟩
    rintro svc r' ⟨ht', hnot', -⟩
    exact ⟨ht', hnot', by simp [hw]⟩
  have hlight := h.lightens py (by simp) (by simp) hn
  have hload := hlight.due .payment r hcommitted hdue
  have hsaga := hlight.saga
  rw [hstep] at hload hsaga ⊢
  have hdone : hd.next = .done →
      System.work { s with payment := hd.db, working := goOn r hd.next } < s.work := by
    intro hnext
    rw [hnext] at hload ⊢
    have := hload (by simp [Due, goOn])
    simp only [goOn] at this
    simp only [work, hw, goOn, stageWork]
    omega
  rcases payment_cases h.consistent hcommitted ht hf hok with ⟨-, -, hnext⟩ | ⟨hnew, -, hproc, hc⟩
  · exact hdone hnext
  · cases hnext : hd.next with
    | done =>
      rw [← hnext]
      exact hdone hnext
    | raise =>
      rw [hnext] at hc
      exact hc.elim
    | reserve req =>
      rw [hnext] at hc hsaga
      obtain ⟨u, hu⟩ := h.consistent.saga r hcommitted
      have hmem := h.consistent.mem_events hcommitted
      rw [hc.1.topic] at hmem
      have hproc' : ∀ f : Facts, f.Processed .payment r ↔ (f.saga u).payment ≠ none := by
        intro f
        simp [Facts.Processed, hc.1.topic, hu]
      have hids : u ∈ s.ids := mem_ids_iff.mpr (h.consistent.order_ne_none hmem hu)
      have := hsaga u hids fun heq => by
        rw [hproc'] at hnew hproc
        exact hnew fun hnone => hproc ((congrArg Saga.payment heq).trans hnone)
      simp only [goOn] at this
      simp only [work, hw, goOn, stageWork]
      omega

theorem Productive.serve_lt (h : s.Inv) {req : ReserveStockRequest} {newId : Uuid} {stamp : Stamp}
    (hp : s.Productive (.serve req newId stamp)) (py : PyText) :
    (System.step py s (.serve req newId stamp)).work < s.work := by
  have hguard : req ∈ s.requests ∧ s.Fresh .inventory stamp := hp
  have hstep : (System.step py s (.serve req newId stamp)).log = s.log ∧
      (System.step py s (.serve req newId stamp)).handled = s.handled ∧
      (System.step py s (.serve req newId stamp)).working = s.working ∧
      (System.step py s (.serve req newId stamp)).requests = s.requests.erase req := by
    simp only [System.step, if_pos hguard]
    split <;> exact ⟨rfl, rfl, rfl, rfl⟩
  obtain ⟨hlog, hhandled, hworking, hrequests⟩ := hstep
  have hnarrows : Narrows s (System.step py s (.serve req newId stamp)) :=
    narrows_of_handled (by rw [hlog]; exact List.Subset.refl _)
      (by rw [hhandled]; exact List.Subset.refl _) (by rw [hworking])
  have hlight := h.lightens py (by simp) (by simp) hnarrows
  have hload := hlight.load
  have hlen := List.length_erase_of_mem hp.1
  have hpos := List.length_pos_of_mem hp.1
  simp only [work, hworking, hrequests, hlen]
  omega

/-- The steps of Payment's handler after its transaction. -/
theorem work_lt_of_stage {s' : System} (horder : s'.order = s.order)
    (hpayment : s'.payment = s.payment) (hinventory : s'.inventory = s.inventory)
    (hn : Narrows s s')
    (hlt : stageWork s'.working + s'.requests.length < stageWork s.working + s.requests.length) :
    s'.work < s.work := by
  have hfacts : s'.facts = s.facts := by
    simp only [facts, horder, hpayment, hinventory]
  have hbacklog : s'.backlog = s.backlog := by
    simp only [System.backlog, hfacts, horder]
  have hsame : ∀ svc, s'.outbox svc = s.outbox svc := by
    intro svc
    cases svc <;> simp only [System.outbox, horder, hpayment, hinventory]
  have hle := fun svc => Table.sum_le_sum (t := s.outbox svc) fun row _ => hn.rowWork_le row
  have h1 := hle .order
  have h2 := hle .payment
  have h3 := hle .inventory
  simp only [work, System.load, outboxWork, hbacklog, hsame]
  omega

/-- Every productive step is work done. -/
theorem Inv.work_lt (h : s.Inv) (ha : s.Amounts) (hu : s.Unnamed) (py : PyText)
    (hp : s.Productive l) : (System.step py s l).work < s.work := by
  cases l with
  | publish svc id => exact hp.publish_lt py
  | markPublished svc id => exact hp.markPublished_lt py
  | orderHandle r stamp acked => exact hp.orderHandle_lt h py
  | paymentHandle r forceFailure stamp => exact hp.paymentHandle_lt h ha py
  | inventoryHandle r stamp acked => exact hp.inventoryHandle_lt h hu py
  | serve req newId stamp => exact hp.serve_lt h py
  | call =>
    obtain ⟨r, req, hw⟩ := hp
    simp only [System.step, hw]
    refine work_lt_of_stage rfl rfl rfl ?_ ?_
    · exact narrows_of_handled (List.Subset.refl _) (List.Subset.refl _) (by rw [hw]; rfl)
    · simp [hw, stageWork]
      omega
  | reply =>
    obtain ⟨r, req, hw, hreply⟩ := hp
    simp only [System.step, hw, if_pos hreply]
    refine work_lt_of_stage rfl rfl rfl ?_ ?_
    · exact narrows_of_handled (List.Subset.refl _) (List.Subset.refl _) (by rw [hw]; rfl)
    · simp [hw, stageWork]
  | fail =>
    obtain ⟨r, req, hw, -⟩ := hp
    simp only [System.step, hw]
    refine work_lt_of_stage rfl rfl rfl ?_ ?_
    · exact narrows_of_handled (List.Subset.refl _) (List.Subset.refl _) (by rw [hw]; rfl)
    · simp [hw, stageWork]
  | commitOffset =>
    obtain ⟨r, hw⟩ := hp
    simp only [System.step, hw]
    refine work_lt_of_stage rfl rfl rfl ⟨List.Subset.refl _, ?_⟩ ?_
    · rintro svc r' ⟨ht, hnot, -⟩
      refine ⟨ht, fun hm => hnot (List.mem_cons_of_mem _ hm), ?_⟩
      rintro ⟨rfl, hr'⟩
      rw [hw, Option.map_some, Option.some.injEq] at hr'
      exact hnot (hr' ▸ List.mem_cons_self)
    · simp [hw, stageWork]
  | createOrder => exact hp.elim
  | markFailed => exact hp.elim
  | drop => exact hp.elim
  | crash => exact hp.elim

/-! ## Nothing is left at rest only -/

/-- A service can draw a new stamp, as long as its outbox has a free row id. -/
theorem exists_fresh {svc : Service} (h : (s.outbox svc).rows.length < 2 ^ 128) :
    ∃ stamp, s.Fresh svc stamp := by
  obtain ⟨id, hid⟩ := Table.exists_free (t := s.outbox svc) (f := BitVec.ofFin (w := 128))
    (fun a b hab => congrArg BitVec.toFin hab) h
  -- a key that is longer than every key in use
  refine ⟨.ofKey (String.ofList (List.replicate ((s.keys.map String.length).sum + 1) 'k')) id
    (by simp [hasNul]), fun hmem => ?_, hid⟩
  have hle := List.le_sum_of_mem (List.mem_map_of_mem (f := String.length) hmem)
  simp [Stamp.ofKey] at hle

/-- Order handles a message that is published to it, or another message of its saga has to
come first. -/
theorem Inv.handled_or_awaited (h : s.Inv) {r : Record} (hr : r ∈ s.log)
    (ht : r.topic ∈ OrderService.consumedTopics) {stamp : Stamp} (hf : s.Fresh .order stamp) :
    (OrderService.handleEvent s.order r.topic (some r.value) stamp).err = none ∨
      ∃ u r', s.Awaited u r' := by
  have hcommitted := h.control.log r hr
  have hc := h.consistent
  obtain ⟨u, hu⟩ := hc.saga r hcommitted
  obtain ⟨t, htrigger⟩ : ∃ t, OrderService.topicTrigger r.topic = some t := by
    cases htopic : r.topic <;> simp [OrderService.consumedTopics, htopic] at ht <;> exact ⟨_, rfl⟩
  by_cases hm : (r.idem, OrderService.consumerName) ∈ s.order.processed
  · left
    have htext : hasNul r.value.idempotencyKey = false := hc.text r hcommitted
    have hmark : markProcessed s.order.processed r.value.idempotencyKey OrderService.consumerName =
        none := markProcessed_eq_none.mpr hm
    simp only [OrderService.handleEvent, htrigger, OrderService.Store.handleEvent, htext,
      Bool.false_eq_true, if_false, hmark]
  have htopic := OrderService.topicTrigger_eq_some.mp htrigger
  have hpub := hc.published_iff.mpr ⟨r, hcommitted, hu, htopic⟩
  obtain ⟨o, ho⟩ : ∃ o, s.order.orders.find? u = some o := by
    have hne := (hc.inv u).order_of_published hpub
    cases ho : s.order.orders.find? u with
    | none => simp [Facts.saga, facts, factsOf, ho] at hne
    | some o => exact ⟨o, rfl⟩
  cases hap : (OrderService.apply o.status t).2 with
  | none =>
    exact Or.inl (OrderService.handleEvent_of_accepted htrigger (hc.text r hcommitted) hm hu ho hap
      hf.2).1
  | some e =>
    obtain ⟨-, u', r', -, hawaited⟩ := h.refused hcommitted htrigger ⟨hm, u, o, hu, ho, hap⟩
    exact Or.inr ⟨u', r', hawaited⟩

/-- Where no productive step is left, the system is at rest. -/
theorem Inv.exists_productive (h : s.Inv) (hr : s.Relayed)
    (hids : ∀ svc, (s.outbox svc).rows.length < 2 ^ 128) (hq : ¬s.Quiescent) :
    ∃ l, s.Productive l := by
  by_contra hno
  push Not at hno
  have hfresh := fun svc => exists_fresh (hids svc)
  have houtboxes : ∀ svc, ∀ row ∈ (s.outbox svc).rows, row.status = .published := by
    intro svc row hrow
    by_contra hst
    have hpending : row.status = .pending := by
      cases hrs : row.status with
      | pending => rfl
      | published => exact absurd hrs hst
    have hfind := Table.mem_iff_find?.mp hrow
    by_cases hlog : row.record ∈ s.log
    · exact hno (.markPublished svc row.id) ⟨row, hfind, hpending, hlog⟩
    · exact hno (.publish svc row.id) ⟨row, hfind, hlog⟩
  have hrequests : s.requests = [] := by
    cases hreq : s.requests with
    | nil => rfl
    | cons req rest =>
      obtain ⟨stamp, hf⟩ := hfresh .inventory
      exact absurd ⟨by simp [hreq], hf⟩ (hno (.serve req 0 stamp))
  have hidle : s.working = none := by
    cases hw : s.working with
    | none => rfl
    | some hd =>
      obtain ⟨r, stage⟩ := hd
      cases stage with
      | reserve req => exact absurd ⟨r, req, hw⟩ (hno .call)
      | finished => exact absurd ⟨r, hw⟩ (hno .commitOffset)
      | calling req =>
        by_cases hreply : req ∈ s.replies
        · exact absurd ⟨r, req, hw, hreply⟩ (hno .reply)
        · exact absurd ⟨r, req, hw, hreply, by simp [hrequests]⟩ (hno .fail)
  refine hq ⟨houtboxes, fun svc r hlog ht => ?_, hidle, hrequests⟩
  by_contra hnot
  obtain ⟨stamp, hf⟩ := hfresh svc
  cases svc with
  | payment => exact hno (.paymentHandle r false stamp) ⟨hlog, ht, hnot, hidle, hf⟩
  | inventory => exact hno (.inventoryHandle r stamp true) ⟨hlog, ht, hnot, hf, rfl⟩
  | order =>
    rcases h.handled_or_awaited hlog ht hf with herr | ⟨u, r', ha⟩
    · exact hno (.orderHandle r stamp true) ⟨hlog, ht, hnot, hf, rfl, herr⟩
    · -- the awaited event is published, since every row is
      have hmem : s.facts.Committed r' ∧ r'.topic ∈ OrderService.consumedTopics := by
        rcases ha.committed with ⟨-, hmem, htopic⟩ | ⟨-, hmem, htopic⟩
        · exact ⟨⟨.payment, hmem⟩, by rw [htopic]; decide⟩
        · exact ⟨⟨.inventory, hmem⟩, by rw [htopic]; decide⟩
      obtain ⟨⟨producer, hmem⟩, ht'⟩ := hmem
      obtain ⟨row, hrow, rfl⟩ := List.mem_map.mp (mem_events_iff.mp hmem)
      have hlog' := hr producer row hrow (houtboxes producer row hrow)
      exact hno (.orderHandle row.record stamp true)
        ⟨hlog', ht', ha.unhandled, hf, rfl, ha.accepted stamp hf⟩

/-! ## Completion -/

/-- What every reachable state of a deployment with the given stock keeps. -/
structure Sane (stock : InventoryService.Stock) (s : System) : Prop where
  inv : s.Inv
  stocked : Stocked stock s
  amounts : s.Amounts
  unnamed : s.Unnamed

theorem sane_init (h₀ : ∀ sku, InventoryService.reserved stock sku = 0) :
    Sane stock (init stock) where
  inv := inv_init stock
  stocked := stocked_init h₀
  amounts := amounts_init stock
  unnamed _ hr := absurd hr List.not_mem_nil

theorem Sane.step (h : Sane stock s) (py : PyText) (l : Label) :
    Sane stock (System.step py s l) where
  inv := h.inv.step py l
  stocked := h.inv.stocked_step py l h.stocked
  amounts := h.inv.amounts_step h.amounts py l
  unnamed := h.inv.unnamed_step py l h.unnamed

theorem sane_run (h₀ : ∀ sku, InventoryService.reserved stock sku = 0) (py : PyText)
    (ls : List Label) : Sane stock (runFrom (System.step py) (init stock) ls) :=
  invariant_runFrom (fun _ l h => h.step py l) ls (sane_init h₀)

/-- A step adds one row to an outbox at most. -/
theorem Inv.length_outbox_step (h : s.Inv) (py : PyText) (l : Label) (svc : Service) :
    ((System.step py s l).outbox svc).rows.length ≤ (s.outbox svc).rows.length + 1 := by
  have hevents : ((System.step py s l).outbox svc).rows.length =
      (eventsOf ((System.step py s l).outbox svc)).length := (List.length_map _).symm
  by_cases hm : ∀ svc id, l ≠ .markPublished svc id ∧ l ≠ .markFailed svc id
  · rcases h.enqueued_step py hm svc with heq | ⟨row, -, hrows⟩
    · rw [heq]
      omega
    · rw [hrows, List.length_append, List.length_singleton]
  · have hfacts : (System.step py s l).facts = s.facts := by
      have hmark : ∃ svc id, l = .markPublished svc id ∨ l = .markFailed svc id := by
        by_contra hno
        push Not at hno
        exact hm hno
      obtain ⟨svc', id, hmark⟩ := hmark
      exact facts_mark py s hmark
    rw [hevents, ← events_facts, hfacts, events_facts, eventsOf, List.length_map]
    omega

theorem length_outbox_run (py : PyText) (stock : InventoryService.Stock) (ls : List Label)
    (svc : Service) :
    ((runFrom (step py) (init stock) ls).outbox svc).rows.length ≤ ls.length := by
  induction ls using List.reverseRecOn with
  | nil => cases svc <;> exact le_refl _
  | append_singleton ls l ih =>
    rw [runFrom_append, List.length_append, List.length_singleton]
    exact ((inv_run py stock ls).length_outbox_step py l svc).trans (Nat.add_le_add_right ih 1)

/-- From every state that a run without lost calls reaches with its published rows on their
topics, productive steps end, after at most `work` of them, and they end only where there is no
residue. -/
theorem completed_or_productive (py : PyText) (stock : InventoryService.Stock)
    (hstock : ∀ row ∈ stock.rows, row.reserved.val = 0 ∧ 0 ≤ row.available.val) (ls : List Label)
    (hl : Along (step py) Lossless (init stock) ls)
    (hr : (runFrom (step py) (init stock) ls).Relayed) (more : List Label)
    (hmore : Along (step py) Productive (runFrom (step py) (init stock) ls) more)
    (hids : ls.length + more.length < 2 ^ 128) :
    more.length ≤ (runFrom (step py) (init stock) ls).work ∧
      ((∃ l, (runFrom (step py) (init stock) (ls ++ more)).Productive l) ∨
        NoResidue stock (runFrom (step py) (init stock) (ls ++ more))) := by
  obtain ⟨h₀, ha⟩ := InventoryService.initial_stock hstock
  constructor
  · have hlen := length_add_le_of_along (I := Sane stock) work (fun s l h hp =>
      ⟨h.step py l, h.inv.work_lt h.amounts h.unnamed py hp⟩) (sane_run h₀ py ls) hmore
    omega
  · have hlossless : Along (step py) Lossless (init stock) (ls ++ more) :=
      along_append.mpr ⟨hl, hmore.imp fun _ _ => Productive.lossless⟩
    have h := sane_run h₀ py (ls ++ more)
    have hrelayed : (runFrom (step py) (init stock) (ls ++ more)).Relayed := by
      rw [runFrom_append]
      exact (inv_run py stock ls).relayed_run py hr (hmore.imp fun _ _ => Productive.acknowledged)
    by_cases hq : (runFrom (step py) (init stock) (ls ++ more)).Quiescent
    · exact Or.inr (hq.noResidue h.inv h.stocked hrelayed (called_run h₀ py hlossless) h₀ ha)
    · refine Or.inl (h.inv.exists_productive hrelayed (fun svc => ?_) hq)
      have hrows := length_outbox_run py stock (ls ++ more) svc
      rw [List.length_append] at hrows
      omega

/-- An order of three units is published and granted, and Order learns of its payment. -/
theorem completed_or_productive_three :
    (∃ l, (runFrom (step noText) (init InventoryService.tenUnits) (toVerdict (.lit 3) ++
        [.orderHandle captured (.ofKey "k4" 4) true])).Productive l) ∨
      NoResidue InventoryService.tenUnits (runFrom (step noText) (init InventoryService.tenUnits)
        (toVerdict (.lit 3) ++ [.orderHandle captured (.ofKey "k4" 4) true])) := by
  have hrun : Along (step noText) Lossless (init InventoryService.tenUnits) (toVerdict (.lit 3)) ∧
      (runFrom (step noText) (init InventoryService.tenUnits) (toVerdict (.lit 3))).Relayed ∧
      (captured ∈ (runFrom (step noText) (init InventoryService.tenUnits)
          (toVerdict (.lit 3))).log ∧
        captured.topic ∈ OrderService.consumedTopics ∧
        (.order, captured) ∉ (runFrom (step noText) (init InventoryService.tenUnits)
          (toVerdict (.lit 3))).handled ∧
        (runFrom (step noText) (init InventoryService.tenUnits) (toVerdict (.lit 3))).Fresh .order
          (.ofKey "k4" 4) ∧ true = true ∧
        (OrderService.handleEvent (runFrom (step noText) (init InventoryService.tenUnits)
          (toVerdict (.lit 3))).order captured.topic (some captured.value) (.ofKey "k4" 4)).err =
          none) := by
    decide +kernel
  exact (completed_or_productive noText _ (by decide) (toVerdict (.lit 3)) hrun.1 hrun.2.1
    [.orderHandle captured (.ofKey "k4" 4) true] ⟨hrun.2.2, trivial⟩ (by decide)).2

end System

end Choreography
