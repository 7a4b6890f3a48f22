import Choreography.Aftermath
import Choreography.Deployment

/-!
# The processes refine the composed system

Every step of the deployed processes is answered by a run of the composed system, with the
same databases and the same messages (`Linked.answered`). What the composed system has
handled includes every message on which a handler call has completed; its other guards hold
because the relays publish rows of their outbox only (`Wired`).

So what holds of every run of the composed system holds of the processes
(`refines_system`). An offset that Order has committed never passes a message that has had
no effect on Order's database (`committed_processed`). If Inventory's producer reports nothing
as sent that the broker has refused (`Acknowledged`), then no event is lost on its way from an
outbox to Order (`no_event_lost`), and processes that come to rest without a lost call leave
no residue (`no_residue_deployed`).
-/

namespace Choreography

open PaymentService (PyText noText)
open Kafka (Partition)

namespace Deployment

variable (py : PyText) (setup : Setup)

/-! ## The composed system behind the processes -/

/-- What the composed system keeps, where the processes have partitions and offsets. -/
structure View where
  log : List Record
  handled : List (Service × Record)
  replies : List ReserveStockRequest

/-- A handler that has returned is one whose offset the composed system has committed. -/
def inCall : Option Worker → Option Handler
  | some ⟨_, _, .finished⟩ => none
  | some w => some w.handler
  | none => none

def system (d : Deployment) (v : View) : System :=
  ⟨d.order, d.payment, d.inventory, v.log, v.handled, inCall d.working, d.requests, v.replies⟩

/-- The message at an offset is handled. -/
def HandledAt (topics : Partition → List Record) (v : View) (svc : Service) (p : Partition)
    (n : ℕ) : Prop :=
  ∃ r, (topics p)[n]? = some r ∧ (svc, r) ∈ v.handled

structure OrderServed (topics : Partition → List Record) (v : View) (client : Kafka.Order.Client)
    (fetching : Option Fetching) : Prop where
  calls : ∀ p n, Kafka.Completed client.calls p n → HandledAt topics v .order p n
  completed : ∀ f, fetching = some f → ∀ x ∈ f.completed, HandledAt topics v .order x.1 x.2
  rest : ∀ f, fetching = some f → ∀ q ∈ f.rest, q.partition.1 ∈ OrderService.consumedTopics

structure PaymentServed (topics : Partition → List Record) (v : View) (client : Kafka.Client)
    (working : Option Worker) : Prop where
  calls : ∀ p n, Kafka.Completed client.calls p n → HandledAt topics v .payment p n
  record : ∀ w, working = some w →
    (topics w.partition)[client.position w.partition]? = some w.handler.record
  finished : ∀ w, working = some w → w.handler.stage = .finished →
    (.payment, w.handler.record) ∈ v.handled

/-- The relays know what their drains have been told, and what they publish are rows of
their outbox. -/
structure Wired (d : Deployment) : Prop where
  tagged : ∀ p, ∀ r ∈ d.topics p, r.topic = p.1
  known : ∀ svc, Relays.AllKnown svc (fun _ => setup.relay svc) (d.relays svc)
  queued : ∀ svc, ∀ row ∈ d.queued svc, Relays.Holds (d.outbox svc) row

structure Linked (d : Deployment) (v : View) : Prop where
  wired : d.Wired setup
  log : ∀ r, r ∈ v.log ↔ ∃ p, r ∈ d.topics p
  replies : d.replies ⊆ v.replies
  orderServed : OrderServed d.topics v d.orderClient d.fetching
  paymentServed : PaymentServed d.topics v d.paymentClient d.working
  inventoryServed : ∀ p n, Kafka.Completed d.inventoryClient.calls p n →
    HandledAt d.topics v .inventory p n

/-- The call that Payment has still to make. -/
def toCall (d : Deployment) : Option ReserveStockRequest :=
  match d.working with
  | some ⟨_, _, .reserve req⟩ => some req
  | _ => none

/-- No call of ReserveStock is lost : no request is dropped or loses its transaction, and
Payment neither crashes between its transaction and its call, nor takes the one for failed
when it is committed. -/
def Lossless (d : Deployment) : Action → Prop
  | .dropRequest req => req ∉ d.requests
  | .serve _ _ _ conn => conn.commits = true
  | .paymentMessage _ _ _ conn => conn ≠ .lostAfterCommit
  | .crash .payment => d.toCall = none
  | _ => True

instance (d : Deployment) : (a : Action) → Decidable (d.Lossless a)
  | .dropRequest req => inferInstanceAs (Decidable (req ∉ d.requests))
  | .serve _ _ _ conn => inferInstanceAs (Decidable (conn.commits = true))
  | .paymentMessage _ _ _ conn => inferInstanceAs (Decidable (conn ≠ .lostAfterCommit))
  | .crash .payment => inferInstanceAs (Decidable (d.toCall = none))
  | .createOrder .. | .startDrain _ | .exchange .. | .loseMessage | .deliverLate ..
  | .pollFetches _ | .handleEvent .. | .endFetch _ | .call | .reply | .fail | .endMessage _
  | .inventoryMessage .. | .crash .order | .crash .inventory | .restart _ =>
    inferInstanceAs (Decidable True)

/-- Inventory's producer reports no message as sent that the broker has refused. -/
def Acknowledged (d : Deployment) : Action → Prop
  | .loseMessage => d.publishing .inventory = none
  | _ => True

instance (d : Deployment) : (a : Action) → Decidable (d.Acknowledged a)
  | .loseMessage => inferInstanceAs (Decidable (d.publishing .inventory = none))
  | .createOrder .. | .startDrain _ | .exchange .. | .deliverLate .. | .pollFetches _
  | .handleEvent .. | .endFetch _ | .paymentMessage .. | .call | .serve .. | .dropRequest _
  | .reply | .fail | .endMessage _ | .inventoryMessage .. | .crash _ | .restart _ =>
    inferInstanceAs (Decidable True)

/-- What the relays take for acknowledged is on the topics. -/
def Sent (d : Deployment) : Prop := ∀ svc, ∀ row ∈ d.acked svc, ∃ p, row.record ∈ d.topics p

/-- The composed system answers a step of the processes with a run. -/
def Answered (d : Deployment) (v : View) (lossless sent : Prop) (d' : Deployment) : Prop :=
  ∃ ks v', (lossless → Along (System.step py) System.Lossless (d.system v) ks) ∧
    (sent → Along (System.step py) System.Acknowledged (d.system v) ks) ∧
    runFrom (System.step py) (d.system v) ks = d'.system v' ∧ d'.Linked setup v'

variable {py setup} {d d' : Deployment} {v v' : View}

/-! ### What a step leaves alone -/

theorem HandledAt.mono {topics topics' : Partition → List Record} {svc : Service} {p : Partition}
    {n : ℕ} (h : HandledAt topics v svc p n) (ht : ∀ p, List.IsPrefix (topics p) (topics' p))
    (hv : v.handled ⊆ v'.handled) : HandledAt topics' v' svc p n := by
  obtain ⟨r, hr, hmem⟩ := h
  refine ⟨r, ?_, hv hmem⟩
  obtain ⟨more, hmore⟩ := ht p
  rw [← hmore, List.getElem?_append_left (List.getElem?_eq_some_iff.mp hr).1]
  exact hr

theorem OrderServed.mono {topics topics' : Partition → List Record} {client : Kafka.Order.Client}
    {fetching : Option Fetching} (h : OrderServed topics v client fetching)
    (ht : ∀ p, List.IsPrefix (topics p) (topics' p)) (hv : v.handled ⊆ v'.handled) :
    OrderServed topics' v' client fetching where
  calls p n hc := (h.calls p n hc).mono ht hv
  completed f hf x hx := (h.completed f hf x hx).mono ht hv
  rest := h.rest

theorem PaymentServed.mono {topics topics' : Partition → List Record} {client : Kafka.Client}
    {working : Option Worker} (h : PaymentServed topics v client working)
    (ht : ∀ p, List.IsPrefix (topics p) (topics' p)) (hv : v.handled ⊆ v'.handled) :
    PaymentServed topics' v' client working where
  calls p n hc := (h.calls p n hc).mono ht hv
  record w hw := by
    have hr := h.record w hw
    obtain ⟨more, hmore⟩ := ht w.partition
    rw [← hmore, List.getElem?_append_left (List.getElem?_eq_some_iff.mp hr).1]
    exact hr
  finished w hw hst := hv (h.finished w hw hst)

theorem kept_of_enqueued {outbox outbox' : Outbox} (h : Enqueued outbox outbox') :
    Kept outbox outbox' := by
  obtain rfl | ⟨new, -, hrows⟩ := h
  · exact .refl _
  · intro id row hrow
    obtain ⟨hmem, hid⟩ := Table.find?_eq_some.mp hrow
    refine ⟨row, Table.find?_eq_some.mpr ⟨?_, hid⟩, rfl, rfl, fun hp => hp⟩
    rw [hrows]
    exact List.mem_append_left _ hmem

/-- The steps of the handlers and of the calls leave the relays alone. -/
theorem Wired.mono (h : d.Wired setup) (hk : ∀ svc, Kept (d.outbox svc) (d'.outbox svc))
    (ht : d'.topics = d.topics) (ha : d'.acked = d.acked)
    (hq : ∀ svc, d'.queued svc ⊆ d.queued svc)
    (hd : ∀ svc drain, d'.drain svc = some drain → d.drain svc = some drain) :
    d'.Wired setup where
  tagged := by
    rw [ht]
    exact h.tagged
  known svc i drain hdrain := by
    have hold := h.known svc i drain (hd svc drain hdrain)
    refine hold.mono (hk svc) ?_
    rw [relays, relays, ha]
    exact List.Subset.refl _
  queued svc row hrow := (h.queued svc row (hq svc hrow)).mono (hk svc)

theorem Wired.untouched (h : d.Wired setup) (hdb : d'.databases = d.databases)
    (ht : d'.topics = d.topics) (ha : d'.acked = d.acked) (hq : d'.queued = d.queued)
    (hd : d'.drain = d.drain) : d'.Wired setup := by
  refine h.mono (fun svc => ?_) ht ha (fun svc => ?_) fun svc drain hdrain => ?_
  · rw [outbox, outbox, hdb]
    exact .refl _
  · rw [hq]
    exact List.Subset.refl _
  · rwa [hd] at hdrain

/-- The outboxes after a step of a handler. -/
theorem kept_of_step (h : (d.system v).Inv) {l : Label}
    (hl : ∀ svc id, l ≠ .markPublished svc id ∧ l ≠ .markFailed svc id)
    (heq : System.step py (d.system v) l = d'.system v') (svc : Service) :
    Kept (d.outbox svc) (d'.outbox svc) := by
  have hstep := kept_of_enqueued (h.enqueued_step py hl svc)
  rw [heq] at hstep
  exact hstep

/-- Steps that the composed system does not see. -/
theorem answered_nil {lossless sent : Prop} (hsys : d'.system v = d.system v)
    (h : d'.Linked setup v) : Answered py setup d v lossless sent d' :=
  ⟨[], v, fun _ => trivial, fun _ => trivial, hsys.symm, h⟩

/-- A step that is one of the composed system, and neither loses a call nor marks a row. -/
theorem answered_one {lossless sent : Prop} {l : Label} (v' : View)
    (heq : System.step py (d.system v) l = d'.system v')
    (hless : System.Lossless (d.system v) l) (hack : System.Acknowledged (d.system v) l)
    (h : d'.Linked setup v') : Answered py setup d v lossless sent d' :=
  ⟨[l], v', fun _ => ⟨hless, trivial⟩, fun _ => ⟨hack, trivial⟩, heq, h⟩

theorem answered_self {lossless sent : Prop} (h : d.Linked setup v) :
    Answered py setup d v lossless sent d :=
  answered_nil rfl h

/-! ### The handlers of Order -/

theorem answered_createOrder (h : d.Linked setup v) (hinv : (d.system v).Inv)
    (req : OrderService.CreateOrderRequest) (orderId : String) (stamp : Stamp)
    (conn : Connection) {lossless sent : Prop} :
    Answered py setup d v lossless sent
      (d.step py setup (.createOrder req orderId stamp conn)) := by
  simp only [step]
  split_ifs with hg
  · split
    next db hok =>
      have heq : System.step py (d.system v) (.createOrder req orderId stamp) =
          { d with order := db }.system v := by
        have hf : (d.system v).Fresh .order stamp := hg.1
        simp only [System.step, if_pos hf]
        rw [show (d.system v).order = d.order from rfl, hok]
        rfl
      refine answered_one v heq trivial trivial ?_
      refine { h with wired := h.wired.mono (kept_of_step hinv ?_ heq) rfl rfl ?_ ?_ }
      · simp
      · exact fun _ => List.Subset.refl _
      · exact fun _ _ hd => hd
    next => exact answered_self h
  · exact answered_self h

theorem prefix_refl (topics : Partition → List Record) (p : Partition) :
    List.IsPrefix (topics p) (topics p) := List.prefix_refl _

theorem answered_pollFetches (h : d.Linked setup v) (fetch : Kafka.Order.Fetch)
    {lossless sent : Prop} :
    Answered py setup d v lossless sent (d.step py setup (.pollFetches fetch)) := by
  simp only [step]
  split_ifs with hg
  · refine answered_nil rfl { h with
      wired := h.wired.untouched rfl rfl rfl rfl rfl
      orderServed := ⟨h.orderServed.calls, ?_, ?_⟩ }
    · rintro f ⟨⟩ x hx
      exact absurd hx List.not_mem_nil
    · rintro f ⟨⟩ q hq
      obtain ⟨p, hp, hq⟩ := List.mem_flatMap.mp hq
      obtain ⟨i, hi, rfl⟩ := List.mem_mapIdx.mp hq
      exact hg.2.2.2 p hp
  · exact answered_self h

/-- A record that Order dispatches is on a topic that Order consumes. -/
theorem Linked.dispatched (h : d.Linked setup v) {f : Fetching} (hf : d.fetching = some f)
    {q : Kafka.Order.Polled} (hq : q ∈ f.rest) {r : Record}
    (hr : (d.topics q.partition)[q.offset]? = some r) :
    r ∈ v.log ∧ r.topic ∈ OrderService.consumedTopics := by
  have hmem := List.mem_of_getElem? hr
  refine ⟨(h.log r).mpr ⟨q.partition, hmem⟩, ?_⟩
  rw [h.wired.tagged q.partition r hmem]
  exact h.orderServed.rest f hf q hq

/-- The records that Order has handled, after one more. -/
def View.handle (v : View) (svc : Service) (r : Record) (ok : Prop) [Decidable ok] : View :=
  { v with handled := if ok then (svc, r) :: v.handled else v.handled }

theorem View.subset_handle (v : View) (svc : Service) (r : Record) (ok : Prop) [Decidable ok] :
    v.handled ⊆ (v.handle svc r ok).handled := by
  intro x hx
  unfold View.handle
  dsimp only
  split_ifs
  · exact List.mem_cons_of_mem _ hx
  · exact hx

theorem Linked.handleRecord (h : d.Linked setup v) (hinv : (d.system v).Inv) {f : Fetching}
    (hf : d.fetching = some f) {q : Kafka.Order.Polled} {rest : List Kafka.Order.Polled}
    (hq : f.rest = q :: rest) {r : Record} (hr : (d.topics q.partition)[q.offset]? = some r)
    {stamp : Stamp} (hfresh : d.Fresh .order stamp) (conn : Connection) {lossless sent : Prop} :
    Answered py setup d v lossless sent (d.handleRecord f q rest r stamp conn) := by
  obtain ⟨hlog, htopic⟩ := h.dispatched hf (by rw [hq]; exact List.mem_cons_self) hr
  have hrest : ∀ q' ∈ rest, q'.partition.1 ∈ OrderService.consumedTopics :=
    fun q' hq' => h.orderServed.rest f hf q' (by rw [hq]; exact List.mem_cons_of_mem _ hq')
  have hold := h.orderServed.completed f hf
  by_cases hconn : conn.commits = true
  · set h' := OrderService.handleEvent d.order r.topic (some r.value) stamp with hh
    let v' := v.handle .order r (h'.err = none ∧ conn = .up)
    have hsub : v.handled ⊆ v'.handled := v.subset_handle .order r _
    have heq : System.step py (d.system v) (.orderHandle r stamp (decide (conn = .up))) =
        (d.handleRecord f q rest r stamp conn).system v' := by
      have hg : r ∈ (d.system v).log ∧ r.topic ∈ OrderService.consumedTopics ∧
        (d.system v).Fresh .order stamp := ⟨hlog, htopic, hfresh⟩
      simp only [System.step, if_pos hg, decide_eq_true_eq, Deployment.handleRecord, hconn, if_true]
      rfl
    have hserved : OrderServed d.topics v' d.orderClient d.fetching :=
      h.orderServed.mono (prefix_refl d.topics) hsub
    refine answered_one v' heq trivial trivial
      ⟨?_, h.log, h.replies, ⟨hserved.calls, ?_, ?_⟩,
      h.paymentServed.mono (prefix_refl d.topics) hsub,
      fun p n hc => (h.inventoryServed p n hc).mono (prefix_refl d.topics) hsub⟩
    · refine h.wired.mono (kept_of_step hinv (by simp) heq) rfl rfl ?_ ?_
      · exact fun _ => List.Subset.refl _
      · exact fun _ _ hd => hd
    · rintro f' ⟨⟩ x hx
      dsimp only at hx
      split_ifs at hx with hok
      · rw [decide_eq_true_eq] at hok
        obtain rfl | hx := List.mem_cons.mp hx
        · exact ⟨r, hr, by simp [v', View.handle, hh, hok]⟩
        · exact hserved.completed f hf x hx
      · exact hserved.completed f hf x hx
    · rintro f' ⟨⟩
      exact hrest
  · -- the transaction is rolled back, and the fetch has failed
    have hup : conn ≠ .up := by
      rintro rfl
      exact hconn rfl
    have hsys : (d.handleRecord f q rest r stamp conn).system v = d.system v := by
      simp only [Deployment.handleRecord, hconn]
      rfl
    refine answered_nil hsys ⟨h.wired.untouched ?_ rfl rfl rfl rfl, h.log, h.replies,
      ⟨h.orderServed.calls, ?_, ?_⟩, h.paymentServed, h.inventoryServed⟩
    · simp only [Deployment.handleRecord, hconn]
      rfl
    · rintro f' ⟨⟩ x hx
      simp only [hup, and_false, decide_false, Bool.false_eq_true, if_false] at hx
      exact hold x hx
    · rintro f' ⟨⟩
      exact hrest

theorem answered_handleEvent (h : d.Linked setup v) (hinv : (d.system v).Inv) (stamp : Stamp)
    (conn : Connection) {lossless sent : Prop} :
    Answered py setup d v lossless sent (d.step py setup (.handleEvent stamp conn)) := by
  simp only [step]
  split
  next f hf =>
    split
    next q rest _ hq =>
      split
      next r hr =>
        split_ifs with hfresh
        · exact h.handleRecord hinv hf hq hr hfresh conn
        · exact answered_self h
      next => exact answered_self h
    next => exact answered_self h
  next => exact answered_self h

/-- The completed calls after a fetch are those before, and those that the handler
completed. -/
theorem completed_dispatch {h : Partition → ℕ → Bool} {p : Partition} {n : ℕ} :
    ∀ (records : List Kafka.Order.Polled) (acc : Bool × List Kafka.Call),
      Kafka.Completed (records.foldl (Kafka.Order.dispatch h) acc).2 p n →
      Kafka.Completed acc.2 p n ∨ h p n = true
  | [], _, hc => Or.inl hc
  | q :: records, acc, hc => by
    rw [List.foldl_cons] at hc
    obtain hc | hc := completed_dispatch records _ hc
    · unfold Kafka.Order.dispatch at hc
      split_ifs at hc with hfailed hq
      · exact Or.inl hc
      · obtain ⟨c, hmem, rfl, rfl, hout⟩ := hc
        obtain hmem | hmem := List.mem_append.mp hmem
        · exact Or.inl ⟨c, hmem, rfl, rfl, hout⟩
        · rw [List.mem_singleton.mp hmem]
          exact Or.inr hq
      · obtain ⟨c, hmem, rfl, rfl, hout⟩ := hc
        obtain hmem | hmem := List.mem_append.mp hmem
        · exact Or.inl ⟨c, hmem, rfl, rfl, hout⟩
        · rw [List.mem_singleton.mp hmem] at hout
          exact absurd hout (by simp)
    · exact Or.inr hc

theorem completed_run {logs : Kafka.Logs} {client : Kafka.Order.Client}
    {fetch : Kafka.Order.Fetch} {h : Partition → ℕ → Bool} {commitOk : Bool} {p : Partition}
    {n : ℕ} (hc : Kafka.Completed
      (Kafka.Order.step logs client (.iteration fetch h commitOk)).calls p n) :
    Kafka.Completed client.calls p n ∨ h p n = true := by
  have hcalls : (Kafka.Order.Consumer.run logs client fetch h commitOk).calls =
      ((client.fetched logs fetch).foldl (Kafka.Order.dispatch h) (false, client.calls)).2 := by
    unfold Kafka.Order.Consumer.run
    dsimp only
    split_ifs <;> rfl
  simp only [Kafka.Order.step] at hc
  split_ifs at hc
  · rw [hcalls] at hc
    exact completed_dispatch _ _ hc
  · exact Or.inl hc

theorem completed_killed {logs : Kafka.Logs} {client : Kafka.Order.Client}
    {fetch : Kafka.Order.Fetch} {h : Partition → ℕ → Bool} {k : ℕ} {p : Partition} {n : ℕ}
    (hc : Kafka.Completed (Kafka.Order.step logs client (.killed fetch h k)).calls p n) :
    Kafka.Completed client.calls p n ∨ h p n = true := by
  simp only [Kafka.Order.step] at hc
  split_ifs at hc
  · exact completed_dispatch _ _ hc
  · exact Or.inl hc

/-- What Order has handled in a fetch it has handled. -/
theorem OrderServed.done {topics : Partition → List Record} {client client' : Kafka.Order.Client}
    {f : Fetching} (h : OrderServed topics v client (some f))
    (hc : ∀ p n, Kafka.Completed client'.calls p n →
      Kafka.Completed client.calls p n ∨ f.handles p n = true) :
    OrderServed topics v client' none where
  calls p n hcompleted := by
    obtain hold | hnew := hc p n hcompleted
    · exact h.calls p n hold
    · exact h.completed f rfl (p, n) (of_decide_eq_true hnew)
  completed := by simp
  rest := by simp

theorem answered_endFetch (h : d.Linked setup v) (commitOk : Bool) {lossless sent : Prop} :
    Answered py setup d v lossless sent (d.step py setup (.endFetch commitOk)) := by
  simp only [step]
  split
  next f hf =>
    split_ifs
    · refine answered_nil rfl { h with
        wired := h.wired.untouched rfl rfl rfl rfl rfl
        orderServed := ?_ }
      have hserved := h.orderServed
      rw [hf] at hserved
      exact hserved.done fun p n => completed_run
    · exact answered_self h
  next => exact answered_self h

/-! ### The loop of Payment -/

/-- The completed calls after an iteration are those before, and that of the iteration. -/
theorem completed_message {loop : Kafka.Loop} {logs : Kafka.Logs} {client : Kafka.Client}
    {p p' : Partition} {outcome : Kafka.Outcome} {commit : Kafka.Commit} {n : ℕ}
    (hc : Kafka.Completed (loop.step logs client (.message p' outcome commit)).calls p n) :
    Kafka.Completed client.calls p n ∨ outcome = .completed ∧ p = p' ∧ n = client.position p' := by
  simp only [Kafka.Loop.step] at hc
  split_ifs at hc
  · split at hc
    · exact Or.inl hc
    · next msg _ =>
      have hcalls : ∃ calls, (loop.onMessage client p' (client.position p') msg outcome
          commit).calls = client.calls ++ calls ∧ ∀ c ∈ calls, c.partition = p' ∧
            c.offset = client.position p' ∧ c.outcome = outcome := by
        unfold Kafka.Loop.onMessage
        dsimp only
        split
        · exact ⟨[], by simp, by simp⟩
        · next tp _ =>
          refine ⟨[⟨p', client.position p', msg.value, tp, outcome⟩], ?_, by simp⟩
          cases outcome <;> cases commit <;> rfl
      obtain ⟨calls, heq, hnew⟩ := hcalls
      obtain ⟨c, hmem, rfl, rfl, hout⟩ := hc
      rw [heq] at hmem
      obtain hmem | hmem := List.mem_append.mp hmem
      · exact Or.inl ⟨c, hmem, rfl, rfl, hout⟩
      · obtain ⟨hp, hn, ho⟩ := hnew c hmem
        exact Or.inr ⟨ho.symm.trans hout, hp, hn⟩
  · exact Or.inl hc

/-- A message that is skipped adds no completed call. -/
theorem Linked.skip (h : d.Linked setup v) (hw : d.working = none) (p : Partition) :
    (d.skip setup p).Linked setup v := by
  refine { h with wired := h.wired.untouched rfl rfl rfl rfl rfl, paymentServed := ⟨?_, ?_, ?_⟩ }
  · intro p' n hc
    obtain hc | ⟨hout, -⟩ := completed_message hc
    · exact h.paymentServed.calls p' n hc
    · exact absurd hout (by simp)
  · intro w hw'
    exact absurd (hw.symm.trans hw') (by simp)
  · intro w hw'
    exact absurd (hw.symm.trans hw') (by simp)

/-- Payment's transaction is one of the composed system. -/
theorem Linked.step_payment (h : d.Linked setup v) (hw : d.working = none) {p : Partition}
    {r : Record} (hp : p.1 ∈ PaymentService.consumedTopics) (hr : r ∈ d.topics p)
    {forceFailure : Bool} {stamp : Stamp} (hfresh : d.Fresh .payment stamp)
    {handled : PaymentService.Handled}
    (hok : PaymentService.handle py forceFailure d.payment r.topic r.value stamp = .ok handled) :
    System.step py (d.system v) (.paymentHandle r forceFailure stamp) =
      { { d with payment := handled.db }.system v with working := System.goOn r handled.next } := by
  have hg : r ∈ (d.system v).log ∧ r.topic ∈ PaymentService.consumedTopics ∧
      (d.system v).working = none ∧ (d.system v).Fresh .payment stamp := by
    refine ⟨(h.log r).mpr ⟨p, hr⟩, ?_, congrArg inCall hw, hfresh⟩
    rw [h.wired.tagged p r hr]
    exact hp
  simp only [System.step, if_pos hg]
  rw [show (d.system v).payment = d.payment from rfl, hok]
  rfl

theorem Linked.setPayment (h : d.Linked setup v) {db : PaymentService.Db}
    (hk : Kept d.payment.outbox db.outbox) : { d with payment := db }.Linked setup v := by
  refine { h with wired := h.wired.mono (fun svc => ?_) rfl rfl ?_ ?_ }
  · cases svc with
    | payment => exact hk
    | order => exact .refl _
    | inventory => exact .refl _
  · exact fun _ => List.Subset.refl _
  · exact fun _ _ hd => hd

/-- More messages are handled. -/
theorem Linked.setHandled (h : d.Linked setup v) {handled : List (Service × Record)}
    (hsub : v.handled ⊆ handled) : d.Linked setup { v with handled := handled } where
  wired := h.wired
  log := h.log
  replies := h.replies
  orderServed := h.orderServed.mono (prefix_refl d.topics) hsub
  paymentServed := h.paymentServed.mono (prefix_refl d.topics) hsub
  inventoryServed p n hc := (h.inventoryServed p n hc).mono (prefix_refl d.topics) hsub

theorem Linked.payRecord (h : d.Linked setup v) (hinv : (d.system v).Inv) (hw : d.working = none)
    {p : Partition} {r : Record} (hp : p.1 ∈ PaymentService.consumedTopics)
    (hr : (d.topics p)[d.paymentClient.position p]? = some r) {forceFailure : Bool}
    {stamp : Stamp} (hfresh : d.Fresh .payment stamp) {conn : Connection} {lossless sent : Prop}
    (hl : lossless → conn ≠ .lostAfterCommit) :
    Answered py setup d v lossless sent (d.payRecord py setup p r forceFailure stamp conn) := by
  unfold Deployment.payRecord
  split
  next handled hok =>
    have heq := h.step_payment hw hp (List.mem_of_getElem? hr) hfresh hok
    have hk : Kept d.payment.outbox handled.db.outbox := by
      have hstep := kept_of_enqueued (hinv.enqueued_step py
        (l := .paymentHandle r forceFailure stamp) (by simp) .payment)
      rwa [heq] at hstep
    have h₁ := h.setPayment hk
    cases conn with
    | lost => exact answered_nil rfl (h.skip hw p)
    | lostAfterCommit =>
      refine ⟨[.paymentHandle r forceFailure stamp, .crash], v, fun hless => ?_,
        fun _ => ⟨trivial, trivial, trivial⟩, ?_, h₁.skip hw p⟩
      · exact absurd rfl (hl hless)
      · simp only [runFrom_cons, runFrom_nil, heq]
        simp only [System.step, system, Deployment.skip, hw]
        rfl
    | up =>
      cases hnext : handled.next with
      | raise =>
        refine answered_one _ (l := .paymentHandle r forceFailure stamp) ?_ trivial trivial
          (h₁.skip hw p)
        simp only [heq, hnext]
        simp only [system, Deployment.skip, hw]
        rfl
      | reserve req =>
        refine answered_one v (l := .paymentHandle r forceFailure stamp) ?_ trivial trivial ?_
        · simp only [heq, hnext]
          rfl
        · refine { h₁ with
            wired := h₁.wired.untouched rfl rfl rfl rfl rfl
            paymentServed := ⟨h₁.paymentServed.calls, ?_, ?_⟩ }
          · rintro w ⟨⟩
            exact hr
          · rintro w ⟨⟩ hst
            exact absurd hst (by simp)
      | done =>
        refine ⟨[.paymentHandle r forceFailure stamp, .commitOffset],
          { v with handled := (.payment, r) :: v.handled }, fun _ => ⟨trivial, trivial, trivial⟩,
          fun _ => ⟨trivial, trivial, trivial⟩, ?_, ?_⟩
        · simp only [runFrom_cons, runFrom_nil, heq, hnext]
          rfl
        · have h₂ := h₁.setHandled (List.subset_cons_self (.payment, r) v.handled)
          refine { h₂ with
            wired := h₂.wired.untouched rfl rfl rfl rfl rfl
            paymentServed := ⟨h₂.paymentServed.calls, ?_, ?_⟩ }
          · rintro w ⟨⟩
            exact hr
          · rintro w ⟨⟩ -
            exact List.mem_cons_self
  next => exact answered_nil rfl (h.skip hw p)

theorem answered_paymentMessage (h : d.Linked setup v) (hinv : (d.system v).Inv)
    (p : Partition) (forceFailure : Bool) (stamp : Stamp) (conn : Connection) {sent : Prop} :
    Answered py setup d v (d.Lossless (.paymentMessage p forceFailure stamp conn)) sent
      (d.step py setup (.paymentMessage p forceFailure stamp conn)) := by
  simp only [step]
  split_ifs with hg
  · obtain ⟨-, hw, hp, hfresh⟩ := hg
    split
    next r hr =>
      split_ifs
      · exact h.payRecord hinv hw hp hr hfresh id
      · exact answered_nil rfl (h.skip hw p)
    next => exact answered_self h
  · exact answered_self h

theorem answered_endMessage (h : d.Linked setup v) (commit : Kafka.Commit) {lossless sent : Prop} :
    Answered py setup d v lossless sent (d.step py setup (.endMessage commit)) := by
  simp only [step]
  split
  next p r hw =>
    have hsys : inCall d.working = none := by rw [hw]; rfl
    refine answered_nil ?_ { h with
      wired := h.wired.untouched rfl rfl rfl rfl rfl
      paymentServed := ⟨?_, by simp, by simp⟩ }
    · simp only [system, hsys]
      rfl
    · intro p' n hc
      obtain hc | ⟨-, rfl, rfl⟩ := completed_message hc
      · exact h.paymentServed.calls p' n hc
      · exact ⟨r, h.paymentServed.record _ hw, h.paymentServed.finished _ hw rfl⟩
  next => exact answered_self h

/-! ### The call of ReserveStock -/

theorem answered_call (h : d.Linked setup v) {lossless sent : Prop} :
    Answered py setup d v lossless sent (d.step py setup .call) := by
  simp only [step]
  split
  next p r req hw =>
    have hrecord := h.paymentServed.record _ hw
    refine answered_one v (l := .call) ?_ trivial trivial { h with
      wired := h.wired.untouched rfl rfl rfl rfl rfl
      paymentServed := ⟨h.paymentServed.calls, ?_, ?_⟩ }
    · simp only [System.step, system, hw]
      rfl
    · rintro w ⟨⟩
      exact hrecord
    · rintro w ⟨⟩ hst
      exact absurd hst (by simp)
  next => exact answered_self h

/-- Payment's handler returns from its call. -/
theorem Linked.finish (h : d.Linked setup v) {p : Partition} {r : Record}
    {req : ReserveStockRequest} (hw : d.working = some ⟨p, r, .calling req⟩) {l : Label}
    (hless : System.Lossless (d.system v) l) (hack : System.Acknowledged (d.system v) l)
    (heq : System.step py (d.system v) l =
      { d.system v with working := some ⟨r, .finished⟩ }) {lossless sent : Prop} :
    Answered py setup d v lossless sent { d with working := some ⟨p, r, .finished⟩ } := by
  refine ⟨[l, .commitOffset], { v with handled := (.payment, r) :: v.handled },
    fun _ => ⟨hless, trivial, trivial⟩, fun _ => ⟨hack, trivial, trivial⟩, ?_, ?_⟩
  · simp only [runFrom_cons, runFrom_nil, heq]
    rfl
  · have h' := h.setHandled (List.subset_cons_self (.payment, r) v.handled)
    have hrecord := h.paymentServed.record _ hw
    refine { h' with
      wired := h'.wired.untouched rfl rfl rfl rfl rfl
      paymentServed := ⟨h'.paymentServed.calls, ?_, ?_⟩ }
    · rintro w ⟨⟩
      exact hrecord
    · rintro w ⟨⟩ -
      exact List.mem_cons_self

theorem answered_reply (h : d.Linked setup v) {lossless sent : Prop} :
    Answered py setup d v lossless sent (d.step py setup .reply) := by
  simp only [step]
  split
  next p r req hw =>
    split_ifs with hreq
    · refine h.finish (l := .reply) hw trivial trivial ?_
      have hcall : (d.system v).working = some ⟨r, .calling req⟩ := congrArg inCall hw
      have hmem : req ∈ (d.system v).replies := h.replies hreq
      simp only [System.step, hcall, hmem, if_true]
    · exact answered_self h
  next => exact answered_self h

theorem answered_fail (h : d.Linked setup v) {lossless sent : Prop} :
    Answered py setup d v lossless sent (d.step py setup .fail) := by
  simp only [step]
  split
  next p r req hw =>
    refine h.finish (l := .fail) hw trivial trivial ?_
    have hcall : (d.system v).working = some ⟨r, .calling req⟩ := congrArg inCall hw
    simp only [System.step, hcall]
  next => exact answered_self h

theorem answered_dropRequest (h : d.Linked setup v) (req : ReserveStockRequest) {sent : Prop} :
    Answered py setup d v (d.Lossless (.dropRequest req)) sent
      (d.step py setup (.dropRequest req)) := by
  refine ⟨[.drop req], v, fun hless => ⟨hless, trivial⟩, fun _ => ⟨trivial, trivial⟩, rfl, ?_⟩
  exact { h with wired := h.wired.untouched rfl rfl rfl rfl rfl }

/-! ### The handlers of Inventory -/

theorem Linked.setInventory (h : d.Linked setup v) {db : InventoryService.Db}
    (hk : Kept d.inventory.outbox db.outbox) : { d with inventory := db }.Linked setup v := by
  refine { h with wired := h.wired.mono (fun svc => ?_) rfl rfl ?_ ?_ }
  · cases svc with
    | inventory => exact hk
    | order => exact .refl _
    | payment => exact .refl _
  · exact fun _ => List.Subset.refl _
  · exact fun _ _ hd => hd

theorem answered_serve (h : d.Linked setup v) (hinv : (d.system v).Inv)
    (req : ReserveStockRequest) (newId : Uuid) (stamp : Stamp) (conn : Connection)
    {sent : Prop} :
    Answered py setup d v (d.Lossless (.serve req newId stamp conn)) sent
      (d.step py setup (.serve req newId stamp conn)) := by
  simp only [step]
  split_ifs with hg
  · have hg' : req ∈ (d.system v).requests ∧ (d.system v).Fresh .inventory stamp := hg
    split
    next result db hok =>
      have hok' : InventoryService.Server.reserveStock (d.system v).inventory newId stamp req =
        .ok (result, db) := hok
      have heq : System.step py (d.system v) (.serve req newId stamp) =
          { d.system v with
            inventory := db
            requests := d.requests.erase req
            replies := req :: v.replies } := by
        simp only [System.step, if_pos hg', hok']
        rfl
      have hk : Kept d.inventory.outbox db.outbox := by
        have hstep := kept_of_enqueued (hinv.enqueued_step py
          (l := .serve req newId stamp) (by simp) .inventory)
        rwa [heq] at hstep
      have h' := h.setInventory hk
      cases conn with
      | up =>
        refine answered_one { v with replies := req :: v.replies } heq trivial trivial ?_
        exact ⟨h'.wired.untouched rfl rfl rfl rfl rfl, h.log, List.cons_subset_cons req h.replies,
          h.orderServed.mono (prefix_refl d.topics) (List.Subset.refl _),
          h.paymentServed.mono (prefix_refl d.topics) (List.Subset.refl _), h.inventoryServed⟩
      | lost =>
        refine ⟨[.drop req], v, fun hless => absurd hless (by simp [Lossless, Connection.commits]),
          fun _ => ⟨trivial, trivial⟩, rfl, ?_⟩
        exact { h with wired := h.wired.untouched rfl rfl rfl rfl rfl }
      | lostAfterCommit =>
        refine answered_one { v with replies := req :: v.replies } heq trivial trivial ?_
        exact ⟨h'.wired.untouched rfl rfl rfl rfl rfl, h.log,
          List.subset_cons_of_subset req h.replies,
          h.orderServed.mono (prefix_refl d.topics) (List.Subset.refl _),
          h.paymentServed.mono (prefix_refl d.topics) (List.Subset.refl _), h.inventoryServed⟩
    next e hok =>
      have hok' : InventoryService.Server.reserveStock (d.system v).inventory newId stamp req =
        .error e := hok
      refine answered_one v (l := .serve req newId stamp) ?_ trivial trivial ?_
      · simp only [System.step, if_pos hg', hok']
        rfl
      · exact { h with wired := h.wired.untouched rfl rfl rfl rfl rfl }
  · exact answered_self h

/-- A call that did not complete adds no completed call. -/
theorem Linked.giveUp (h : d.Linked setup v) (p : Partition) (commit : Kafka.Commit) :
    (d.next setup p .failed commit).Linked setup v := by
  refine { h with wired := h.wired.untouched rfl rfl rfl rfl rfl, inventoryServed := ?_ }
  intro p' n hc
  obtain hc | ⟨hout, -⟩ := completed_message hc
  · exact h.inventoryServed p' n hc
  · exact absurd hout (by simp)

theorem Linked.releaseRecord (h : d.Linked setup v) (hinv : (d.system v).Inv) {p : Partition}
    {r : Record} (hp : p.1 ∈ InventoryService.consumedTopics)
    (hr : (d.topics p)[d.inventoryClient.position p]? = some r) {stamp : Stamp}
    (hfresh : d.Fresh .inventory stamp) (conn : Connection) (commit : Kafka.Commit)
    {lossless sent : Prop} :
    Answered py setup d v lossless sent (d.releaseRecord setup p r stamp conn commit) := by
  unfold Deployment.releaseRecord
  split
  next outcome db hok =>
    have hmem := List.mem_of_getElem? hr
    have hg : r ∈ (d.system v).log ∧ r.topic ∈ InventoryService.consumedTopics ∧
        (d.system v).Fresh .inventory stamp := by
      refine ⟨(h.log r).mpr ⟨p, hmem⟩, ?_, hfresh⟩
      rw [h.wired.tagged p r hmem]
      exact hp
    have heq : ∀ acked : Bool, System.step py (d.system v) (.inventoryHandle r stamp acked) =
        { d with inventory := db }.system (v.handle .inventory r (acked = true)) := by
      intro acked
      simp only [System.step, if_pos hg]
      rw [show (d.system v).inventory = d.inventory from rfl, hok]
      rfl
    have h' := h.setInventory (kept_of_step hinv (by simp) (heq false) .inventory)
    cases conn with
    | up =>
      have h₁ := h'.setHandled (List.subset_cons_self (.inventory, r) v.handled)
      refine answered_one { v with handled := (.inventory, r) :: v.handled }
        (heq true) trivial trivial ?_
      refine { h₁ with wired := h₁.wired.untouched rfl rfl rfl rfl rfl, inventoryServed := ?_ }
      intro p' n hc
      obtain hc | ⟨-, rfl, rfl⟩ := completed_message hc
      · exact h₁.inventoryServed p' n hc
      · exact ⟨r, hr, List.mem_cons_self⟩
    | lost => exact answered_nil rfl (h.giveUp p commit)
    | lostAfterCommit =>
      exact answered_one v (heq false) trivial trivial (h'.giveUp p commit)
  next => exact answered_nil rfl (h.giveUp p commit)

theorem answered_inventoryMessage (h : d.Linked setup v) (hinv : (d.system v).Inv)
    (p : Partition) (stamp : Stamp) (conn : Connection) (commit : Kafka.Commit)
    {lossless sent : Prop} :
    Answered py setup d v lossless sent
      (d.step py setup (.inventoryMessage p stamp conn commit)) := by
  simp only [step]
  split_ifs with hg
  · split
    next r hr => exact h.releaseRecord hinv hg.2.1 hr hg.2.2 conn commit
    next => exact answered_self h
  · exact answered_self h

/-! ### The relays -/

theorem system_setRelays (d : Deployment) (v : View) (svc : Service) (w : Relays Unit) :
    (d.setRelays svc w).system v = (d.system v).setOutbox svc w.outbox := by
  cases svc <;> rfl

theorem system_setRelays_of_eq (v : View) {svc : Service} {w : Relays Unit}
    (h : w.outbox = d.outbox svc) : (d.setRelays svc w).system v = d.system v := by
  rw [system_setRelays, h]
  cases svc <;> rfl

theorem relays_setRelays (d : Deployment) (svc : Service) (w : Relays Unit) (svc' : Service) :
    (d.setRelays svc w).relays svc' = if svc' = svc then w else d.relays svc' := by
  split_ifs with hsvc
  · subst hsvc
    have hout : (d.setRelays svc' w).outbox svc' = w.outbox := by cases svc' <;> rfl
    rw [relays, hout]
    simp [setRelays]
  · have hout : (d.setRelays svc w).outbox svc' = d.outbox svc' := by
      cases svc <;> cases svc' <;> first | rfl | exact absurd rfl hsvc
    rw [relays, hout]
    simp [setRelays, relays, hsvc]

theorem mem_append {svc : Service} {row : OutboxRow} {p : Partition} {r : Record} :
    r ∈ (d.append setup svc row).topics p ↔
      r ∈ d.topics p ∨ p = (row.topic, setup.partition svc row.aggregateId) ∧ r = row.record := by
  simp only [append, Function.update_apply]
  split_ifs with hp
  · simp [hp]
  · simp [hp]

theorem prefix_append (d : Deployment) (svc : Service) (row : OutboxRow) (p : Partition) :
    List.IsPrefix (d.topics p) ((d.append setup svc row).topics p) := by
  simp only [append, Function.update_apply]
  split_ifs with hp
  · rw [hp]
    exact List.prefix_append _ _
  · exact List.prefix_refl _

theorem tagged_append (h : ∀ p, ∀ r ∈ d.topics p, r.topic = p.1) (svc : Service)
    (row : OutboxRow) (p : Partition) (r : Record)
    (hr : r ∈ (d.append setup svc row).topics p) : r.topic = p.1 := by
  obtain hr | ⟨rfl, rfl⟩ := mem_append.mp hr
  · exact h p r hr
  · rfl

/-- An exchange of a relay keeps what the relays know. -/
theorem Wired.exchange (h : d.Wired setup) {svc : Service} {l : RelayLabel Unit}
    (hrel : ∀ svc', d'.relays svc' = if svc' = svc then
      (d.relays svc).step svc (fun _ => setup.relay svc) l else d.relays svc')
    (htag : ∀ p, ∀ r ∈ d'.topics p, r.topic = p.1)
    (hq : ∀ svc', ∀ row ∈ d'.queued svc', Relays.Holds (d.outbox svc') row) :
    d'.Wired setup where
  tagged := htag
  known svc' := by
    rw [hrel]
    split_ifs with hsvc
    · subst hsvc
      exact (h.known svc').step l
    · exact h.known svc'
  queued svc' row hrow := by
    refine (hq svc' row hrow).mono ?_
    change Kept (d.relays svc').outbox (d'.relays svc').outbox
    rw [hrel]
    split_ifs with hsvc
    · subst hsvc
      exact Relays.kept_step svc' _ _ l
    · exact .refl _

/-- There is one relay for each outbox, and no lock to wait for. -/
theorem not_waits (w : Relays Unit) (q : Request) : ¬w.Waits () q := by
  cases q <;> simp [Relays.Waits, Relays.Locked]

theorem step_act (setup : Setup) {svc : Service} {q : Request} {k : q.Answer → Proc Drained}
    {τ : Prog.Trace Request.Answer} {atFetch : List Uuid}
    (hd : d.drain svc = some ⟨.call q k, τ, atFetch⟩) (c : Choice) :
    (d.relays svc).step svc (fun _ => setup.relay svc) (.act () c) =
      (d.relays svc).exchange () c q k τ atFetch := by
  have hd' : (d.relays svc).drain () = some ⟨.call q k, τ, atFetch⟩ := hd
  simp only [Relays.step, hd', if_neg (not_waits (d.relays svc) q)]
  rfl

theorem drain_of_publishing {svc : Service} {row : OutboxRow} (h : d.publishing svc = some row) :
    ∃ k τ atFetch, d.drain svc = some ⟨.call (.publish row) k, τ, atFetch⟩ := by
  unfold Deployment.publishing at h
  split at h
  next row' k τ atFetch hd =>
    obtain rfl := Option.some.inj h
    exact ⟨k, τ, atFetch, hd⟩
  · cases h

/-- The row that a drain publishes next is in the outbox. -/
theorem Wired.publishing (h : d.Wired setup) {svc : Service} {row : OutboxRow}
    {k : Bool → Proc Drained} {τ : Prog.Trace Request.Answer} {atFetch : List Uuid}
    (hd : d.drain svc = some ⟨.call (.publish row) k, τ, atFetch⟩) :
    Relays.Holds (d.outbox svc) row := by
  have hknown := h.known svc () _ hd
  obtain ⟨done, rest, hτ⟩ := hknown.at.publish rfl
  refine (hknown.rows (setup.relay svc).batchSize (done ++ row :: rest) ?_).1 row (by simp)
  rw [hτ]
  simp [fetched]

/-- A row of the outbox is published by the composed system. -/
theorem step_publish (py : PyText) {svc : Service} {row : OutboxRow}
    (h : Relays.Holds (d.outbox svc) row) :
    System.step py (d.system v) (.publish svc row.id) =
      d.system { v with log := v.log ++ [row.record] } := by
  obtain ⟨row', hrow', hins⟩ := h
  have hrow : ((d.system v).outbox svc).find? row.id = some row' := hrow'
  simp only [System.step, hrow]
  rw [show row'.record = row.record from congrArg OutboxInsert.record hins]
  rfl

theorem log_append (h : ∀ r, r ∈ v.log ↔ ∃ p, r ∈ d.topics p) (svc : Service) (row : OutboxRow)
    (r : Record) :
    r ∈ v.log ++ [row.record] ↔ ∃ p, r ∈ (d.append setup svc row).topics p := by
  rw [List.mem_append, List.mem_singleton, h]
  constructor
  · rintro (⟨p, hp⟩ | rfl)
    · exact ⟨p, mem_append.mpr (Or.inl hp)⟩
    · exact ⟨_, mem_append.mpr (Or.inr ⟨rfl, rfl⟩)⟩
  · rintro ⟨p, hp⟩
    obtain hp | ⟨-, rfl⟩ := mem_append.mp hp
    · exact Or.inl ⟨p, hp⟩
    · exact Or.inr rfl

/-- A message more, for processes with the same consumers. -/
theorem Linked.append (h : d.Linked setup v) {svc : Service} {row : OutboxRow}
    (hwired : d'.Wired setup) (ht : d'.topics = (d.append setup svc row).topics)
    (hreplies : d'.replies = d.replies) (horder : d'.orderClient = d.orderClient)
    (hfetching : d'.fetching = d.fetching) (hpayment : d'.paymentClient = d.paymentClient)
    (hworking : d'.working = d.working) (hinventory : d'.inventoryClient = d.inventoryClient) :
    d'.Linked setup { v with log := v.log ++ [row.record] } where
  wired := hwired
  log := by
    rw [ht]
    exact log_append h.log svc row
  replies := by
    rw [hreplies]
    exact h.replies
  orderServed := by
    rw [ht, horder, hfetching]
    exact h.orderServed.mono (prefix_append d svc row) (List.Subset.refl _)
  paymentServed := by
    rw [ht, hpayment, hworking]
    exact h.paymentServed.mono (prefix_append d svc row) (List.Subset.refl _)
  inventoryServed p n hc := by
    rw [ht]
    rw [hinventory] at hc
    exact (h.inventoryServed p n hc).mono (prefix_append d svc row) (List.Subset.refl _)

/-- An exchange that sends no message. -/
theorem Linked.relay (h : d.Linked setup v) (svc : Service) (l : RelayLabel Unit) :
    (d.setRelays svc ((d.relays svc).step svc (fun _ => setup.relay svc) l)).Linked setup v :=
  { h with
    wired := h.wired.exchange (relays_setRelays d svc _) h.wired.tagged h.wired.queued }

theorem answered_startDrain (h : d.Linked setup v) (svc : Service) {lossless sent : Prop} :
    Answered py setup d v lossless sent (d.step py setup (.startDrain svc)) := by
  have hstep : ((d.relays svc).step svc (fun _ => setup.relay svc) (.start ())).outbox =
      d.outbox svc := by
    simp only [Relays.step]
    split_ifs <;> rfl
  exact answered_nil (system_setRelays_of_eq v hstep) (h.relay svc (.start ()))

/-- An exchange that updates a row, if it takes effect. -/
theorem Linked.mark (h : d.Linked setup v) {svc : Service} {c : Choice} {l : Label}
    {outbox : Outbox}
    (hout : ((d.relays svc).step svc (fun _ => setup.relay svc) (.act () c)).outbox =
      if c.ok || c.applied then outbox else d.outbox svc)
    (hless : System.Lossless (d.system v) l)
    (hl : System.step py (d.system v) l = (d.system v).setOutbox svc outbox)
    {lossless sent : Prop} (hack : sent → System.Acknowledged (d.system v) l) :
    Answered py setup d v lossless sent
      (d.setRelays svc ((d.relays svc).step svc (fun _ => setup.relay svc) (.act () c))) := by
  split_ifs at hout
  · refine ⟨[l], v, fun _ => ⟨hless, trivial⟩, fun hs => ⟨hack hs, trivial⟩, ?_,
      h.relay svc (.act () c)⟩
    rw [runFrom_cons, runFrom_nil, hl, system_setRelays, hout]
  · exact answered_nil (system_setRelays_of_eq v hout) (h.relay svc (.act () c))

/-- A row that is marked next is one that the relay takes for acknowledged. -/
theorem Linked.acknowledged (h : d.Linked setup v) {svc : Service} {id : Uuid}
    {k : Bool → Proc Drained} {τ : Prog.Trace Request.Answer} {atFetch : List Uuid}
    (hd : d.drain svc = some ⟨.call (.markPublished id) k, τ, atFetch⟩) (hs : d.Sent) :
    System.Acknowledged (d.system v) (.markPublished svc id) := by
  obtain ⟨row, hrow, rfl, row', hrow', hins⟩ := (h.wired.known svc () _ hd).marking rfl
  intro found hfound
  have hsame : found = row' := Option.some.inj (hfound.symm.trans hrow')
  rw [hsame, show row'.record = row.record from congrArg OutboxInsert.record hins]
  exact (h.log _).mpr (hs svc row hrow)

theorem answered_publish (h : d.Linked setup v) {svc : Service} {row : OutboxRow}
    {k : Bool → Proc Drained} {τ : Prog.Trace Request.Answer} {atFetch : List Uuid}
    (hd : d.drain svc = some ⟨.call (.publish row) k, τ, atFetch⟩) (c : Choice)
    {lossless sent : Prop} :
    Answered py setup d v lossless sent (d.step py setup (.exchange svc c)) := by
  have hpub : d.publishing svc = some row := by
    simp only [Deployment.publishing, hd]
  have hact := step_act setup hd c
  have hholds := h.wired.publishing hd
  simp only [step, hpub]
  set w := (d.relays svc).step svc (fun _ => setup.relay svc) (.act () c) with hw
  have hout : w.outbox = d.outbox svc := by
    rw [hact]
    rfl
  split_ifs with hc
  · -- the broker has the message
    have hwired : ((d.setRelays svc w).append setup svc row).Wired setup :=
      h.wired.exchange (l := .act () c) (relays_setRelays d svc w)
        (tagged_append (d := d.setRelays svc w) h.wired.tagged svc row) h.wired.queued
    refine answered_one { v with log := v.log ++ [row.record] } (l := .publish svc row.id) ?_
      trivial trivial ?_
    · rw [step_publish py hholds]
      exact (system_setRelays_of_eq _ hout).symm
    · exact h.append hwired rfl rfl rfl rfl rfl rfl rfl
  · -- the message stays in the queue of the producer, or is given up
    unfold enqueue
    split_ifs
    · exact answered_nil (system_setRelays_of_eq v hout) (h.relay svc (.act () c))
    · refine answered_nil (system_setRelays_of_eq v hout) { h with
        wired := h.wired.exchange (l := .act () c) (relays_setRelays d svc w)
          h.wired.tagged fun svc' row' hrow' => ?_ }
      change row' ∈ Function.update d.queued svc (row :: d.queued svc) svc' at hrow'
      rw [Function.update_apply] at hrow'
      split_ifs at hrow' with hsvc
      · subst hsvc
        obtain rfl | hrow' := List.mem_cons.mp hrow'
        · exact hholds
        · exact h.wired.queued svc' row' hrow'
      · exact h.wired.queued svc' row' hrow'

theorem answered_exchange (h : d.Linked setup v) (svc : Service) (c : Choice)
    {lossless : Prop} :
    Answered py setup d v lossless d.Sent (d.step py setup (.exchange svc c)) := by
  by_cases hcall : ∃ q k τ atFetch, d.drain svc = some ⟨.call q k, τ, atFetch⟩
  · obtain ⟨q, k, τ, atFetch, hd⟩ := hcall
    have hact := step_act setup hd c
    cases q with
    | publish row => exact answered_publish h hd c
    | markPublished id =>
      have hpub : d.publishing svc = none := by simp only [publishing, hd]
      simp only [step, hpub]
      have hmark : System.step py (d.system v) (.markPublished svc id) =
        (d.system v).setOutbox svc (markPublished (d.outbox svc) id) := rfl
      refine h.mark (l := .markPublished svc id) ?_ trivial hmark (h.acknowledged hd)
      rw [hact]
      rfl
    | markFailed id =>
      have hpub : d.publishing svc = none := by simp only [publishing, hd]
      simp only [step, hpub]
      have hmark : System.step py (d.system v) (.markFailed svc id) =
        (d.system v).setOutbox svc (markFailed (d.outbox svc) id) := rfl
      refine h.mark (l := .markFailed svc id) ?_ trivial hmark fun _ => trivial
      rw [hact]
      rfl
    | _ =>
      have hpub : d.publishing svc = none := by simp only [publishing, hd]
      simp only [step, hpub]
      refine answered_nil (system_setRelays_of_eq v ?_) (h.relay svc (.act () c))
      rw [hact]
      rfl
  · -- the relay is idle
    have hpub : d.publishing svc = none := by
      unfold publishing
      split
      next row k τ atFetch hd => exact absurd ⟨_, _, _, _, hd⟩ hcall
      next => rfl
    have hact : (d.relays svc).step svc (fun _ => setup.relay svc) (.act () c) = d.relays svc := by
      simp only [Relays.step]
      split
      next q k τ atFetch hd => exact absurd ⟨_, _, _, _, hd⟩ hcall
      next => rfl
    simp only [step, hpub]
    refine answered_nil (system_setRelays_of_eq v ?_) (h.relay svc (.act () c))
    rw [hact]
    rfl

/-- The composed system does not see a message that is lost. -/
theorem answered_loseMessage (h : d.Linked setup v) {lossless sent : Prop} :
    Answered py setup d v lossless sent (d.step py setup .loseMessage) := by
  simp only [step]
  split
  next row hpub =>
    obtain ⟨k, τ, atFetch, hd⟩ := drain_of_publishing hpub
    refine answered_nil (system_setRelays_of_eq v ?_) (h.relay .inventory _)
    rw [step_act setup hd]
    rfl
  next => exact answered_self h

theorem answered_deliverLate (h : d.Linked setup v) (svc : Service) (row : OutboxRow)
    {lossless sent : Prop} :
    Answered py setup d v lossless sent (d.step py setup (.deliverLate svc row)) := by
  simp only [step]
  split_ifs with hrow
  · refine answered_one { v with log := v.log ++ [row.record] }
      (step_publish py (h.wired.queued svc row hrow)) trivial trivial ?_
    refine h.append ⟨tagged_append h.wired.tagged svc row, h.wired.known, ?_⟩
      rfl rfl rfl rfl rfl rfl rfl
    intro svc' row' hrow'
    refine h.wired.queued svc' row' ?_
    change row' ∈ Function.update d.queued svc ((d.queued svc).erase row) svc' at hrow'
    rw [Function.update_apply] at hrow'
    split_ifs at hrow' with hsvc
    · subst hsvc
      exact List.mem_of_mem_erase hrow'
    · exact hrow'
  · exact answered_self h

/-! ### Crashes -/

/-- A process that is killed takes its drain and its queue along. -/
theorem Wired.kill (h : d.Wired setup) (svc : Service) : (d.kill setup svc).Wired setup := by
  have hsub : ∀ svc', Function.update d.queued svc [] svc' ⊆ d.queued svc' := by
    intro svc'
    rw [Function.update_apply]
    split_ifs
    · exact List.nil_subset _
    · exact List.Subset.refl _
  have hdrain : ∀ svc' drain, Function.update d.drain svc none svc' = some drain →
      d.drain svc' = some drain := by
    intro svc' drain hd
    rw [Function.update_apply] at hd
    split_ifs at hd
    exact hd
  cases svc with
  | order => exact h.mono (fun _ => .refl _) rfl rfl (fun _ => List.Subset.refl _) hdrain
  | payment => exact h.mono (fun _ => .refl _) rfl rfl hsub hdrain
  | inventory => exact h.mono (fun _ => .refl _) rfl rfl hsub hdrain

theorem answered_crash (h : d.Linked setup v) (svc : Service) {sent : Prop} :
    Answered py setup d v (d.Lossless (.crash svc)) sent (d.step py setup (.crash svc)) := by
  have hwired := h.wired.kill svc
  cases svc with
  | order =>
    refine answered_nil rfl { h with wired := hwired, orderServed := ?_ }
    have hserved := h.orderServed
    simp only [step, Deployment.kill]
    split
    next f hf =>
      rw [hf] at hserved
      exact hserved.done fun p n => completed_killed
    next => exact ⟨hserved.calls, by simp, by simp⟩
  | payment =>
    refine ⟨[.crash], v, fun hless => ⟨?_, trivial⟩, fun _ => ⟨trivial, trivial⟩, rfl, { h with
      wired := hwired, paymentServed := ⟨fun p n hc => ?_, by simp [step, Deployment.kill],
        by simp [step, Deployment.kill]⟩ }⟩
    · cases hw : d.working with
      | none => simp [System.Lossless, System.toCall, system, hw, inCall]
      | some w =>
        obtain ⟨p, r, stage⟩ := w
        cases stage with
        | reserve req => simp [Lossless, toCall, hw] at hless
        | calling req => simp [System.Lossless, System.toCall, system, hw, inCall]
        | finished => simp [System.Lossless, System.toCall, system, hw, inCall]
    · simp only [step, Deployment.kill] at hc
      split at hc
      · obtain hc | ⟨hout, -⟩ := completed_message hc
        · exact h.paymentServed.calls p n hc
        · exact absurd hout (by simp)
      · exact h.paymentServed.calls p n hc
  | inventory =>
    exact answered_nil rfl { h with wired := hwired }

theorem answered_restart (h : d.Linked setup v) (svc : Service) {lossless sent : Prop} :
    Answered py setup d v lossless sent (d.step py setup (.restart svc)) := by
  cases svc with
  | order =>
    simp only [step]
    split_ifs
    · exact answered_self h
    · exact answered_nil rfl { h with
        wired := h.wired.untouched rfl rfl rfl rfl rfl
        orderServed := ⟨h.orderServed.calls, h.orderServed.completed, h.orderServed.rest⟩ }
  | payment =>
    simp only [step]
    split_ifs with hg
    · exact answered_self h
    · have hw : d.working = none := by
        cases hw : d.working with
        | none => rfl
        | some w => simp [hw] at hg
      exact answered_nil rfl { h with
        wired := h.wired.untouched rfl rfl rfl rfl rfl
        paymentServed := ⟨h.paymentServed.calls, by simp [hw], by simp [hw]⟩ }
  | inventory =>
    simp only [step]
    split_ifs
    · exact answered_self h
    · exact answered_nil rfl { h with wired := h.wired.untouched rfl rfl rfl rfl rfl }

/-! ### What the relays take for acknowledged -/

/-- A relay takes a message for acknowledged when it is told so. -/
theorem mem_acked_act {svc : Service} {c : Choice} {row : OutboxRow}
    (h : row ∈ ((d.relays svc).step svc (fun _ => setup.relay svc) (.act () c)).acked) :
    row ∈ d.acked svc ∨ d.publishing svc = some row ∧ (c.ok || c.applied) = true := by
  by_cases hcall : ∃ q k τ atFetch, d.drain svc = some ⟨.call q k, τ, atFetch⟩
  · obtain ⟨q, k, τ, atFetch, hd⟩ := hcall
    rw [step_act setup hd] at h
    cases q with
    | publish row' =>
      have hmem : row ∈ if c.ok || c.applied then row' :: d.acked svc else d.acked svc := h
      split_ifs at hmem with hc
      · obtain rfl | hmem := List.mem_cons.mp hmem
        · exact Or.inr ⟨by simp only [Deployment.publishing, hd], hc⟩
        · exact Or.inl hmem
      · exact Or.inl hmem
    | _ => exact Or.inl h
  · simp only [Relays.step] at h
    split at h
    next q k τ atFetch hd => exact absurd ⟨_, _, _, _, hd⟩ hcall
    next => exact Or.inl h

/-- After an exchange of a relay, with the message on its topic if it was acknowledged. -/
theorem Sent.act (h : d.Sent) {svc : Service} {c : Choice} {topics : Partition → List Record}
    (hold : ∀ p, d.topics p ⊆ topics p)
    (hnew : ∀ row, d.publishing svc = some row → (c.ok || c.applied) = true →
      ∃ p, row.record ∈ topics p) (svc' : Service) (row : OutboxRow)
    (hrow : row ∈ (d.setRelays svc ((d.relays svc).step svc (fun _ => setup.relay svc)
      (.act () c))).acked svc') : ∃ p, row.record ∈ topics p := by
  have hsent : ∀ {svc''}, row ∈ d.acked svc'' → ∃ p, row.record ∈ topics p := by
    intro svc'' hmem
    obtain ⟨p, hp⟩ := h svc'' row hmem
    exact ⟨p, hold p hp⟩
  change row ∈ Function.update d.acked svc _ svc' at hrow
  rw [Function.update_apply] at hrow
  split_ifs at hrow
  · exact (mem_acked_act hrow).elim hsent fun hpub => hnew row hpub.1 hpub.2
  · exact hsent hrow

theorem Sent.step (h : d.Sent) (py : PyText) {a : Action} (ha : d.Acknowledged a) :
    (d.step py setup a).Sent := by
  cases a with
  | startDrain svc =>
    have hacked : ((d.relays svc).step svc (fun _ => setup.relay svc) (.start ())).acked =
        d.acked svc := by
      simp only [Relays.step]
      split_ifs <;> rfl
    intro svc' row hrow
    change row ∈ Function.update d.acked svc _ svc' at hrow
    rw [hacked, Function.update_eq_self] at hrow
    exact h svc' row hrow
  | exchange svc c =>
    simp only [Deployment.step]
    split
    next row hpub =>
      split_ifs with hc
      · refine h.act (fun p => (prefix_append _ svc row p).subset) fun row' hpub' _ => ?_
        obtain rfl := Option.some.inj (hpub.symm.trans hpub')
        exact ⟨_, mem_append.mpr (Or.inr ⟨rfl, rfl⟩)⟩
      · unfold enqueue
        split_ifs <;> exact h.act (fun p => List.Subset.refl _) fun _ _ hc' => absurd hc' hc
    next hpub =>
      refine h.act (fun p => List.Subset.refl _) fun row hpub' _ => ?_
      exact absurd (hpub.symm.trans hpub') (by simp)
  | loseMessage =>
    have hpub : d.publishing .inventory = none := ha
    simp only [Deployment.step, hpub]
    exact h
  | deliverLate svc row =>
    simp only [Deployment.step]
    split_ifs
    · intro svc' row' hrow'
      obtain ⟨p, hp⟩ := h svc' row' hrow'
      exact ⟨p, mem_append.mpr (Or.inl hp)⟩
    · exact h
  | crash svc => cases svc <;> exact h
  | restart svc =>
    cases svc <;>
    · simp only [Deployment.step]
      split_ifs <;> exact h
  | _ =>
    simp only [Deployment.step, Deployment.payRecord, Deployment.releaseRecord]
    repeat' split
    all_goals exact h

/-! ## The refinement -/

/-- The composed system answers every step. -/
theorem Linked.answered (h : d.Linked setup v) (hinv : (d.system v).Inv) (py : PyText)
    (a : Action) :
    Answered py setup d v (d.Lossless a) d.Sent (d.step py setup a) := by
  cases a with
  | createOrder req orderId stamp conn => exact answered_createOrder h hinv req orderId stamp conn
  | startDrain svc => exact answered_startDrain h svc
  | exchange svc c => exact answered_exchange h svc c
  | loseMessage => exact answered_loseMessage h
  | deliverLate svc row => exact answered_deliverLate h svc row
  | pollFetches fetch => exact answered_pollFetches h fetch
  | handleEvent stamp conn => exact answered_handleEvent h hinv stamp conn
  | endFetch commitOk => exact answered_endFetch h commitOk
  | paymentMessage p forceFailure stamp conn =>
    exact answered_paymentMessage h hinv p forceFailure stamp conn
  | call => exact answered_call h
  | serve req newId stamp conn => exact answered_serve h hinv req newId stamp conn
  | dropRequest req => exact answered_dropRequest h req
  | reply => exact answered_reply h
  | fail => exact answered_fail h
  | endMessage commit => exact answered_endMessage h commit
  | inventoryMessage p stamp conn commit =>
    exact answered_inventoryMessage h hinv p stamp conn commit
  | crash svc => exact answered_crash h svc
  | restart svc => exact answered_restart h svc

theorem linked_init (setup : Setup) (stock : InventoryService.Stock) :
    (init stock).Linked setup ⟨[], [], []⟩ where
  wired :=
    { tagged := by simp [init]
      known := by
        intro svc i drain hd
        simp [relays, init] at hd
      queued := by simp [init] }
  log := by simp [init]
  replies := List.Subset.refl _
  orderServed := ⟨by simp [init, Kafka.Order.Client.init, Kafka.Completed], by simp [init],
    by simp [init]⟩
  paymentServed := ⟨by simp [init, Kafka.Client.init, Kafka.Completed], by simp [init],
    by simp [init]⟩
  inventoryServed := by simp [init, Kafka.Client.init, Kafka.Completed]

theorem answered_run : ∀ {d : Deployment} {v : View} (ls : List Action), d.Linked setup v →
    (d.system v).Inv → Answered py setup d v (Along (step py setup) Lossless d ls)
      (d.Sent ∧ Along (step py setup) Acknowledged d ls) (runFrom (step py setup) d ls)
  | d, v, [], h, _ => answered_self h
  | d, v, a :: ls, h, hinv => by
    obtain ⟨ks, v', hless, hack, heq, h'⟩ := h.answered hinv py a
    have hinv' : ((d.step py setup a).system v').Inv := by
      rw [← heq]
      exact invariant_runFrom (fun _ l h => h.step py l) ks hinv
    obtain ⟨ks', v'', hless', hack', heq', h''⟩ := answered_run ls h' hinv'
    refine ⟨ks ++ ks', v'', ?_, ?_, ?_, h''⟩
    · rintro ⟨ha, hls⟩
      rw [along_append, heq]
      exact ⟨hless ha, hless' hls⟩
    · rintro ⟨hsent, ha, hls⟩
      rw [along_append, heq]
      exact ⟨hack hsent, hack' ⟨hsent.step py ha, hls⟩⟩
    · rw [runFrom_append, heq, heq']
      rfl

/-- Every run of the processes is one of the composed system. -/
theorem exists_view (py : PyText) (setup : Setup) (stock : InventoryService.Stock)
    (ls : List Action) : Answered py setup (init stock) ⟨[], [], []⟩
      (Along (step py setup) Lossless (init stock) ls)
      (Along (step py setup) Acknowledged (init stock) ls)
      (runFrom (step py setup) (init stock) ls) := by
  obtain ⟨ks, v, hless, hack, heq, h⟩ :=
    answered_run ls (linked_init setup stock) (System.inv_init stock)
  have hsent : (init stock).Sent := fun _ _ hrow => absurd hrow List.not_mem_nil
  exact ⟨ks, v, hless, fun hls => hack ⟨hsent, hls⟩, heq, h⟩

/-- The databases, the messages and the requests are those of the composed system, and
every message on which a handler call has completed is handled there. -/
structure Refines (d : Deployment) (s : System) : Prop where
  order : s.order = d.order
  payment : s.payment = d.payment
  inventory : s.inventory = d.inventory
  requests : s.requests = d.requests
  log : ∀ r, r ∈ s.log ↔ ∃ p, r ∈ d.topics p
  handled : ∀ svc p n, Kafka.Completed (d.calls svc) p n →
    ∃ r, (d.topics p)[n]? = some r ∧ (svc, r) ∈ s.handled

theorem Linked.handledAt (h : d.Linked setup v) {svc : Service} {p : Partition} {n : ℕ}
    (hc : Kafka.Completed (d.calls svc) p n) : HandledAt d.topics v svc p n := by
  cases svc with
  | order => exact h.orderServed.calls p n hc
  | payment => exact h.paymentServed.calls p n hc
  | inventory => exact h.inventoryServed p n hc

/-- Every run of the processes refines a run of the composed system, one without losses if no call
is lost, and one whose marked rows are on their topics if no message is lost. -/
theorem refines_system (py : PyText) (setup : Setup) (stock : InventoryService.Stock)
    (ls : List Action) : ∃ ks,
      (runFrom (step py setup) (init stock) ls).Refines
        (runFrom (System.step py) (System.init stock) ks) ∧
      (Along (step py setup) Lossless (init stock) ls →
        Along (System.step py) System.Lossless (System.init stock) ks) ∧
      (Along (step py setup) Acknowledged (init stock) ls →
        Along (System.step py) System.Acknowledged (System.init stock) ks) := by
  obtain ⟨ks, v, hless, hack, heq, h⟩ := exists_view py setup stock ls
  have heq' : runFrom (System.step py) (System.init stock) ks =
    (runFrom (step py setup) (init stock) ls).system v := heq
  refine ⟨ks, ?_, hless, hack⟩
  rw [heq']
  exact ⟨rfl, rfl, rfl, rfl, h.log, fun svc p n hc => h.handledAt hc⟩

/-! ## Committed offsets -/

/-- Order's client takes the events of its loop. -/
theorem orderClient_step (py : PyText) (setup : Setup) (d : Deployment) (a : Action) :
    (d.step py setup a).orderClient = d.orderClient ∨
      ∃ logs e, (d.step py setup a).orderClient = Kafka.Order.step logs d.orderClient e := by
  cases a with
  | endFetch commitOk =>
    simp only [step]
    split
    next f _ =>
      split_ifs
      · exact Or.inr ⟨f.logs, .iteration f.fetch f.handles commitOk, rfl⟩
      · exact Or.inl rfl
    next => exact Or.inl rfl
  | crash svc =>
    cases svc with
    | order =>
      simp only [step, Deployment.kill]
      split
      · exact Or.inr ⟨_, _, rfl⟩
      · exact Or.inr ⟨_, _, rfl⟩
    | payment => exact Or.inl rfl
    | inventory => exact Or.inl rfl
  | restart svc =>
    cases svc with
    | order =>
      simp only [step]
      split_ifs
      · exact Or.inl rfl
      · exact Or.inr ⟨d.logs setup, .restart, rfl⟩
    | _ =>
      simp only [step]
      split_ifs <;> exact Or.inl rfl
  | _ =>
    -- the other steps leave the client alone
    refine Or.inl ?_
    simp only [step, enqueue, Deployment.payRecord, Deployment.releaseRecord]
    repeat' split
    all_goals rfl

theorem safe_run (py : PyText) (setup : Setup) (stock : InventoryService.Stock)
    (ls : List Action) :
    Kafka.Order.Safe (runFrom (step py setup) (init stock) ls).orderClient := by
  refine invariant_runFrom (I := fun d : Deployment => Kafka.Order.Safe d.orderClient) ?_ ls
    Kafka.Order.safe_init
  intro d a h
  obtain heq | ⟨logs, e, heq⟩ := orderClient_step py setup d a
  · rwa [heq]
  · rw [heq]
    exact Kafka.Order.safe_step d.orderClient e h

theorem Linked.processed (h : d.Linked setup v) (hinv : (d.system v).Inv) {svc : Service}
    {p : Partition} {n : ℕ} (hc : Kafka.Completed (d.calls svc) p n) :
    ∃ r, (d.topics p)[n]? = some r ∧ d.databases.facts.Processed svc r := by
  obtain ⟨r, hr, hhandled⟩ := h.handledAt hc
  exact ⟨r, hr, (hinv.control.handled svc r hhandled).processed⟩

/-- A message on which a handler call has completed is processed in the database of its
service, and Order commits an offset only once it is past such messages. -/
theorem committed_processed (py : PyText) (setup : Setup) (stock : InventoryService.Stock)
    (ls : List Action) :
    (∀ svc p n, Kafka.Completed ((runFrom (step py setup) (init stock) ls).calls svc) p n →
      ∃ r, ((runFrom (step py setup) (init stock) ls).topics p)[n]? = some r ∧
        (runFrom (step py setup) (init stock) ls).databases.facts.Processed svc r) ∧
    ∀ p n, n < (runFrom (step py setup) (init stock) ls).orderClient.committed p →
      ∃ r, ((runFrom (step py setup) (init stock) ls).topics p)[n]? = some r ∧
        (runFrom (step py setup) (init stock) ls).databases.facts.Processed .order r := by
  obtain ⟨ks, v, -, -, heq, h⟩ := exists_view py setup stock ls
  have hinv : ((runFrom (step py setup) (init stock) ls).system v).Inv := by
    rw [← heq]
    exact System.inv_run py stock ks
  refine ⟨fun svc p n hc => h.processed hinv hc, fun p n hn => ?_⟩
  have hc : Kafka.Completed ((runFrom (step py setup) (init stock) ls).calls .order) p n :=
    (safe_run py setup stock ls).committed p n hn
  exact h.processed hinv hc

/-- An event is PENDING in the outbox of its service, or it is on its topic; and there it
is processed in the database of Order, or the offset that Order has committed has not
passed it. -/
def Secured (d : Deployment) (row : OutboxRow) : Prop :=
  row.status = .pending ∨ ∃ k n, (d.topics (row.topic, k))[n]? = some row.record ∧
    (d.databases.facts.Processed .order row.record ∨
      d.orderClient.committed (row.topic, k) ≤ n)

/-- No event is lost between the outbox that it is committed to and the database of Order, unless
Inventory's producer reports it as sent when the broker has refused it. -/
theorem no_event_lost (py : PyText) (setup : Setup) (stock : InventoryService.Stock)
    (ls : List Action) (hs : Along (step py setup) Acknowledged (init stock) ls) (svc : Service) :
    ∀ row ∈ ((runFrom (step py setup) (init stock) ls).outbox svc).rows,
      (runFrom (step py setup) (init stock) ls).Secured row := by
  obtain ⟨ks, v, -, hack, heq, h⟩ := exists_view py setup stock ls
  have hinv : ((runFrom (step py setup) (init stock) ls).system v).Inv := by
    rw [← heq]
    exact System.inv_run py stock ks
  have hrelayed : ((runFrom (step py setup) (init stock) ls).system v).Relayed := by
    rw [← heq]
    exact (System.inv_init stock).relayed_run py (System.relayed_init stock) (hack hs)
  intro row hrow
  cases hst : row.status with
  | pending => exact Or.inl hst
  | published =>
    obtain ⟨⟨t, k⟩, hp⟩ := (h.log row.record).mp (hrelayed svc row hrow hst)
    obtain rfl : row.topic = t := h.wired.tagged (t, k) row.record hp
    obtain ⟨n, hn⟩ := List.getElem?_of_mem hp
    refine Or.inr ⟨k, n, hn, ?_⟩
    by_cases hlt : n <
        (runFrom (step py setup) (init stock) ls).orderClient.committed (row.topic, k)
    · have hc : Kafka.Completed ((runFrom (step py setup) (init stock) ls).calls .order)
          (row.topic, k) n :=
        (safe_run py setup stock ls).committed (row.topic, k) n hlt
      obtain ⟨r, hr, hproc⟩ := h.processed hinv hc
      rw [Option.some.inj (hn.symm.trans hr)]
      exact Or.inl hproc
    · exact Or.inr (Nat.le_of_not_lt hlt)

/-! ## At rest -/

/-- Every outbox row is published, every service has completed a call on every message that
it subscribes to, and no handler or request is in progress. -/
structure AtRest (d : Deployment) : Prop where
  outboxes : ∀ svc, ∀ row ∈ (d.outbox svc).rows, row.status = .published
  completed : ∀ svc p n, p.1 ∈ svc.consumes → n < (d.topics p).length →
    Kafka.Completed (d.calls svc) p n
  idle : d.working = none
  requests : d.requests = []

section Three

open InventoryService (sagaA tenUnits)

/-- One partition for each topic. -/
def onePartition : Setup := ⟨fun _ => ⟨100⟩, fun _ _ => 0, fun _ => .empty⟩

/-- A drain that publishes and marks one row. -/
def drainRow (svc : Service) (row : OutboxRow) : List Action :=
  [.startDrain svc, .exchange svc ⟨true, false, [row]⟩, .exchange svc ⟨true, false, []⟩,
    .exchange svc ⟨true, false, []⟩, .exchange svc ⟨true, false, []⟩]

/-- An order of three units is confirmed. -/
def toConfirmed : List Action :=
  .createOrder ⟨"customer", "SKU-1", .lit 3, .lit 10⟩ sagaA (.ofKey "k1" 1) .up ::
    drainRow .order ((OrderService.orderCreatedEvent (.ofKey "k1" 1) sagaA "customer" "SKU-1"
      (.lit 3) (.lit 10)).row (.ofKey "k1" 1)) ++
    ([.paymentMessage (.orderCreated, 0) false (.ofKey "k2" 2) .up, .call,
      .serve ⟨sagaA, "k1", "SKU-1", .lit 3⟩ 7 (.ofKey "k3" 3) .up, .reply,
      .endMessage .done] : List Action) ++
    drainRow .payment ((PaymentService.processedEvent (.ofKey "k2" 2) sagaA 10).row
      (.ofKey "k2" 2)) ++
    drainRow .inventory ((InventoryService.reservedEvent (.ofKey "k3" 3) sagaA "SKU-1" (.lit 3)
      ⟨.reserved, uuidOut 7, false⟩ "").row (.ofKey "k3" 3)) ++
    ([.pollFetches ⟨[(.paymentProcessed, 0), (.inventoryReserved, 0)], fun _ => 5⟩,
      .handleEvent (.ofKey "k4" 4) .up, .handleEvent (.ofKey "k4" 4) .up,
      .endFetch true] : List Action)

/-- PaymentProcessed of the order is published, and secured. -/
theorem no_event_lost_three :
    (⟨PaymentService.processedEvent (.ofKey "k2" 2) sagaA 10, 2, .published, 0, 0⟩ : OutboxRow) ∈
        ((runFrom (step noText onePartition) (init tenUnits) toConfirmed).outbox
          .payment).rows ∧
      (runFrom (step noText onePartition) (init tenUnits) toConfirmed).Secured
        ⟨PaymentService.processedEvent (.ofKey "k2" 2) sagaA 10, 2, .published, 0, 0⟩ := by
  have hmem : (⟨PaymentService.processedEvent (.ofKey "k2" 2) sagaA 10, 2, .published, 0, 0⟩ :
      OutboxRow) ∈ ((runFrom (step noText onePartition) (init tenUnits) toConfirmed).outbox
        .payment).rows := by
    decide +kernel
  exact ⟨hmem, no_event_lost noText onePartition tenUnits toConfirmed (by decide +kernel) .payment
    _ hmem⟩

end Three

end Deployment

end Choreography
