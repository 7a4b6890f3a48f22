import Choreography.Consumers
import Choreography.OrderRuns
import Choreography.Payment

/-!
# What stops a consumer

Three things can keep a consumer from the messages that come next.

The loop can end. Inventory's loop ends only when it is told to. Order's loop also ends
when a commit fails, and Payment's with it or on a `traceparent` header that is not UTF-8
(`onDuty_throughout_iff`).

The handler can fail on a message again and again. Order's handler is meant to do so only
while the message is premature for its order; it also does for a key with a NUL and for a
saga id that is not a UUID (`parksOnlyPremature_iff`).

And a message that fails can hold up the others. Order dispatches the partitions of a fetch
one after another and stops at the first failure, so that a parked message keeps the
partitions behind it from being handled, even when one of them has what it waits for
(`reachesAccepted_iff`).
-/

namespace Choreography.Kafka

/-! ## The end of a loop -/

/-- A client, and whether it was told to stop. -/
structure Supervised (α : Type) where
  client : α
  asked : Bool

/-- A loop that was not told to stop goes on. -/
def OnDuty {α : Type} (running : α → Bool) (s : Supervised α) : Prop :=
  s.asked = false → running s.client = true

/-- An iteration of the loops of Payment and Inventory in a process that stays up. -/
inductive Poll
  | idle
  | message (p : Partition) (handled committed : Bool)
  | stop
  deriving DecidableEq

/-- The iteration as an event of the loop. -/
def Poll.event : Poll → Event
  | .idle => .idle
  | .message p handled committed =>
    .message p (if handled then .completed else .failed) (if committed then .done else .failed)
  | .stop => .stop

def Loop.poll (loop : Loop) (logs : Logs) (s : Supervised Client) (e : Poll) :
    Supervised Client where
  client := loop.step logs s.client e.event
  asked := s.asked || e = .stop

/-- The iteration raises out of the loop : it reads a header that cannot be decoded, or a
commit fails and raises. -/
def Loop.Raises (loop : Loop) (logs : Logs) (s : Supervised Client) : Poll → Prop
  | .message p handled committed => s.asked = false ∧
    ∃ msg ∈ (logs p)[s.client.position p]?, loop.traceparent msg.headers = none ∨
      handled = true ∧ committed = false ∧ loop.commitRaises = true
  | .idle | .stop => False

theorem Loop.onDuty_poll_iff (loop : Loop) (logs : Logs) (s : Supervised Client) (e : Poll)
    (h : OnDuty Client.running s) :
    OnDuty Client.running (loop.poll logs s e) ↔ ¬loop.Raises logs s e := by
  cases e with
  | idle => exact ⟨fun _ hr => hr, fun _ ha => h (by simpa [poll] using ha)⟩
  | stop => exact ⟨fun _ hr => hr, fun _ ha => by simp [poll] at ha⟩
  | message p handled committed =>
    have hasked : (loop.poll logs s (.message p handled committed)).asked = s.asked := by
      simp [poll]
    rw [OnDuty, hasked]
    cases ha : s.asked with
    | true => simp [Raises, ha]
    | false =>
    have hrun := h ha
    cases hmsg : (logs p)[s.client.position p]? with
    | none => simp [Raises, hmsg, poll, Poll.event, step, hrun]
    | some msg =>
    simp only [Raises, ha, hmsg, Option.mem_def, Option.some.injEq, exists_eq_left', true_and,
      forall_const, poll, Poll.event, step, hrun, if_true, onMessage]
    cases loop.traceparent msg.headers <;> cases handled <;> cases committed <;>
      cases loop.commitRaises <;> simp

/-- Payment's loop raises exactly if the record has a `traceparent` header that is not
UTF-8, or if it was handled and its commit fails. -/
def Payment.Raises (logs : Logs) (s : Supervised Client) : Poll → Prop
  | .message p handled committed => s.asked = false ∧
    ∃ msg ∈ (logs p)[s.client.position p]?,
      (∃ v, (traceparentHeader, some v) ∈ msg.headers ∧ v.validateUTF8 = false) ∨
        handled = true ∧ committed = false
  | .idle | .stop => False

/-- A fold stops exactly if one of the elements stops it. -/
theorem foldlM_eq_none {α β : Type} {f : β → α → Option β} (stops : α → Prop)
    (hf : ∀ b a, f b a = none ↔ stops a) :
    ∀ (l : List α) (b : β), l.foldlM f b = none ↔ ∃ a ∈ l, stops a
  | [], b => by simp
  | a :: l, b => by
    rw [List.foldlM_cons]
    cases h : f b a with
    | none => simp [(hf b a).mp h]
    | some b' =>
      have hgo : ¬stops a := fun hs => by simp [(hf b a).mpr hs] at h
      simp [hgo, foldlM_eq_none stops hf l]

theorem Payment.traceparent_eq_none (headers : List (String × Option ByteArray)) :
    KafkaConsumer.run.traceparent headers = none ↔
      ∃ v, (traceparentHeader, some v) ∈ headers ∧ v.validateUTF8 = false := by
  dsimp only [KafkaConsumer.run]
  refine (foldlM_eq_none
    (fun h => h.1 = traceparentHeader ∧ ∃ v, h.2 = some v ∧ v.validateUTF8 = false)
    (fun tp h => ?_) headers ByteArray.empty).trans ⟨?_, ?_⟩
  · obtain ⟨name, value⟩ := h
    cases value <;> by_cases hname : name = traceparentHeader <;> simp [hname]
  · rintro ⟨⟨_, _⟩, hmem, rfl, v, rfl, hv⟩
    exact ⟨v, hmem, hv⟩
  · rintro ⟨v, hmem, hv⟩
    exact ⟨_, hmem, rfl, v, rfl, hv⟩

theorem Payment.raises_iff (logs : Logs) (s : Supervised Client) (e : Poll) :
    KafkaConsumer.run.Raises logs s e ↔ Raises logs s e := by
  cases e with
  | idle => exact Iff.rfl
  | stop => exact Iff.rfl
  | message p handled committed =>
    have hraises : KafkaConsumer.run.commitRaises = true := rfl
    simp only [Loop.Raises, Raises, traceparent_eq_none, hraises, and_true]

namespace Order

/-- An iteration of Order's loop in a process that stays up. -/
inductive Poll
  | iteration (fetch : Fetch) (h : Partition → ℕ → Bool) (commitOk : Bool)
  | stop

def Poll.event : Poll → Event
  | .iteration fetch h commitOk => .iteration fetch h commitOk
  | .stop => .stop

def Poll.isStop : Poll → Bool
  | .iteration .. => false
  | .stop => true

def poll (logs : Logs) (s : Supervised Client) (e : Poll) : Supervised Client where
  client := step logs s.client e.event
  asked := s.asked || e.isStop

/-- The handler returns nil on every record of the fetch, and the commit fails. -/
def Quits (logs : Logs) (s : Supervised Client) : Poll → Prop
  | .iteration fetch h commitOk => s.asked = false ∧ commitOk = false ∧
    ∀ r ∈ s.client.fetched logs fetch, h r.partition r.offset = true
  | .stop => False

theorem running_run (logs : Logs) (s : Client) (fetch : Fetch) (h : Partition → ℕ → Bool)
    (commitOk : Bool) (hrun : s.running = true) :
    (Consumer.run logs s fetch h commitOk).running = true ↔
      ¬(commitOk = false ∧ ∀ r ∈ s.fetched logs fetch, h r.partition r.offset = true) := by
  have hfailed := foldl_dispatch_fst h (s.fetched logs fetch) s.calls
  unfold Consumer.run
  cases hf : ((s.fetched logs fetch).foldl (dispatch h) (false, s.calls)).1 with
  | true =>
    obtain ⟨r, hr, hfail⟩ := hfailed.mp hf
    have hnot : ¬∀ r ∈ s.fetched logs fetch, h r.partition r.offset = true := fun hall => by
      rw [hall r hr] at hfail
      exact nomatch hfail
    simp [hf, hnot, Client.setOffsets, Client.pollFetches, hrun]
  | false =>
    have hall : ∀ r ∈ s.fetched logs fetch, h r.partition r.offset = true := by
      intro r hr
      by_contra hfail
      rw [hfailed.mpr ⟨r, hr, by simpa using hfail⟩] at hf
      exact nomatch hf
    cases commitOk with
    | true => simp [hf, Client.commitUncommittedOffsets, Client.pollFetches, hrun]
    | false =>
      simp only [hf, Bool.false_eq_true, if_false, true_and]
      exact iff_of_false id (not_not_intro hall)

theorem onDuty_poll_iff (logs : Logs) (s : Supervised Client) (e : Poll)
    (h : OnDuty Client.running s) :
    OnDuty Client.running (poll logs s e) ↔ ¬Quits logs s e := by
  cases e with
  | stop => exact ⟨fun _ hq => hq, fun _ ha => by simp [poll, Poll.isStop] at ha⟩
  | iteration fetch hd commitOk =>
    have hasked : (poll logs s (.iteration fetch hd commitOk)).asked = s.asked := by
      simp [poll, Poll.isStop]
    rw [OnDuty, hasked]
    cases ha : s.asked with
    | true => simp [Quits, ha]
    | false =>
      have hrun := h ha
      simp only [Quits, ha, true_and, forall_const, poll, Poll.event, step, hrun, if_true]
      exact running_run logs s.client fetch hd commitOk hrun

end Order

/-- The loops end only when they are told to : Order's exactly if no commit fails after a
fetch that was handled, Payment's exactly if no commit fails after a record that was
handled and no record has a `traceparent` header that is not UTF-8, and Inventory's
always. -/
theorem onDuty_throughout_iff (logs : Logs) :
    (∀ es, Throughout (Order.poll logs) (OnDuty Order.Client.running) ⟨.init, false⟩ es ↔
      Along (Order.poll logs) (fun s e => ¬Order.Quits logs s e) ⟨.init, false⟩ es) ∧
    (∀ es, Throughout (Payment.KafkaConsumer.run.poll logs) (OnDuty Client.running)
        ⟨.init, false⟩ es ↔
      Along (Payment.KafkaConsumer.run.poll logs) (fun s e => ¬Payment.Raises logs s e)
        ⟨.init, false⟩ es) ∧
    ∀ es, Throughout (Inventory.Consumer.run.poll logs) (OnDuty Client.running)
      ⟨.init, false⟩ es := by
  refine ⟨fun es => ?_, fun es => ?_, fun es pre _ => ?_⟩
  · exact throughout_iff_along (I := fun _ => True) (fun _ _ _ => trivial)
      (fun s e _ h => Order.onDuty_poll_iff logs s e h) trivial (fun _ => rfl)
  · refine throughout_iff_along (I := fun _ => True) (fun _ _ _ => trivial)
      (fun s e _ h => ?_) trivial (fun _ => rfl)
    rw [Loop.onDuty_poll_iff _ logs s e h, Payment.raises_iff]
  · refine invariant_runFrom (I := OnDuty Client.running) (fun s e h => ?_) pre (fun _ => rfl)
    rw [Loop.onDuty_poll_iff _ logs s e h]
    cases e <;> simp [Loop.Raises, Inventory.Consumer.run]

/-- A message whose `traceparent` header is the byte `0xff`. -/
def undecodable : Logs := fun _ => [⟨[(traceparentHeader, some ⟨#[0xff]⟩)], ⟨#[]⟩⟩]

/-- Order's loop ends on a failed commit, and Payment's on a header and on a failed commit. -/
theorem not_onDuty_undecodable :
    ¬OnDuty Order.Client.running (Order.poll undecodable ⟨.init, false⟩
      (.iteration ⟨[(.paymentProcessed, 0)], fun _ => 1⟩ (fun _ _ => true) false)) ∧
    ¬OnDuty Client.running (Payment.KafkaConsumer.run.poll undecodable ⟨.init, false⟩
      (.message (.orderCreated, 0) true true)) ∧
    ¬OnDuty Client.running (Payment.KafkaConsumer.run.poll (fun _ => [⟨[], ⟨#[]⟩⟩])
      ⟨.init, false⟩ (.message (.orderCreated, 0) true false)) := by
  unfold OnDuty
  decide +kernel

end Choreography.Kafka

/-! ## A message that fails again and again -/

namespace Choreography.OrderService

variable {db : Db} {topic : Topic} {env : Envelope} {stamp : Stamp}

/-- The order of the message exists, and its status is one that the trigger of the topic is
premature for. -/
def Premature (db : Db) (topic : Topic) (env : Envelope) : Prop :=
  ∃ t ∈ topicTrigger topic, ∃ u ∈ uuidIn env.sagaId, ∃ o ∈ db.orders.find? u,
    (apply o.status t).2 = some .prematureEvent

/-- The tables refuse a text of the message : the key, or the saga id of a message that was
not processed before. -/
def Unusable (db : Db) (topic : Topic) (env : Envelope) : Prop :=
  topicTrigger topic ≠ none ∧ (hasNul env.idempotencyKey = true ∨
    (env.idempotencyKey, consumerName) ∉ db.processed ∧ uuidIn env.sagaId = none)

/-- The message cancels its order, and the row id drawn for OrderCancelled is taken. -/
def Clashes (db : Db) (topic : Topic) (env : Envelope) (stamp : Stamp) : Prop :=
  db.outbox.find? stamp.rowId ≠ none ∧
    ∃ t ∈ topicTrigger topic, ∃ u ∈ uuidIn env.sagaId, ∃ o ∈ db.orders.find? u,
      (apply o.status t).2 = none ∧ Cancels o.status t

/-- What `handleEvent` fails on. -/
def Stuck (db : Db) (topic : Topic) (env : Envelope) (stamp : Stamp) : Prop :=
  Unusable db topic env ∨ (env.idempotencyKey, consumerName) ∉ db.processed ∧
    (Premature db topic env ∨ Clashes db topic env stamp)

theorem Applied.not_clash {t : Trigger} {u : Uuid} {o : Order} {db' : Db}
    (h : Applied db t env stamp u o db') (hcan : Cancels o.status t) :
    db.outbox.find? stamp.rowId = none := by
  have hob := h.outbox
  rw [if_pos hcan] at hob
  exact (insertOutbox_eq_ok.mp hob).1

/-- `handleEvent` returns an error exactly on what it is stuck on. -/
theorem err_ne_none_iff (db : Db) (topic : Topic) (env : Envelope) (stamp : Stamp) :
    (handleEvent db topic (some env) stamp).err ≠ none ↔ Stuck db topic env stamp := by
  cases ht : topicTrigger topic with
  | none => simp [handleEvent, ht, Stuck, Unusable, Premature, Clashes]
  | some t =>
  simp only [handleEvent, ht]
  cases htext : hasNul env.idempotencyKey with
  | true => simp [Store.handleEvent, htext, Stuck, Unusable, ht]
  | false =>
  by_cases hmem : (env.idempotencyKey, consumerName) ∈ db.processed
  · simp [Store.handleEvent, htext, markProcessed_eq_none.mpr hmem, Stuck, Unusable, hmem]
  have hmark := markProcessed_eq_some.mpr ⟨hmem, rfl⟩
  cases hu : uuidIn env.sagaId with
  | none => simp [Store.handleEvent, htext, hmark, hu, Stuck, Unusable, ht, hmem]
  | some u =>
  have hstuck : Stuck db topic env stamp ↔ ∃ o ∈ db.orders.find? u,
      (apply o.status t).2 = some .prematureEvent ∨
        db.outbox.find? stamp.rowId ≠ none ∧ (apply o.status t).2 = none ∧
          Cancels o.status t := by
    simp only [Stuck, Unusable, Premature, Clashes, htext, hmem, hu, ht]
    simp only [Option.mem_def, Option.some.injEq, exists_eq_left']
    grind
  rw [hstuck]
  cases ho : db.orders.find? u with
  | none => simp [Store.handleEvent, htext, hmark, hu, ho]
  | some o =>
  simp only [Option.mem_def, Option.some.injEq, exists_eq_left']
  cases hap : (apply o.status t).2 with
  | some e =>
    rw [store_handleEvent_of_refused htext ⟨hmem, u, o, hu, ho, hap⟩ stamp]
    cases e <;> simp
  | none =>
    obtain ⟨⟨e, h⟩, hcan, htaken⟩ | ⟨db', ha, h⟩ :=
      store_handleEvent_of_accepted htext hmem hu ho hap stamp
    · simp [h, hcan, htaken]
    · have hfree : ¬(db.outbox.find? stamp.rowId ≠ none ∧ Cancels o.status t) :=
        fun hclash => hclash.1 (ha.not_clash hclash.2)
      simpa [h] using hfree

theorem handleEvent_none (db : Db) (topic : Topic) (stamp : Stamp) :
    handleEvent db topic none stamp = ⟨db, none, none⟩ := by
  cases ht : topicTrigger topic <;> simp [handleEvent, ht]

/-- A message fails only if it is premature for its order. Every other one is applied or
skipped. -/
structure ParksOnlyPremature (db : Db) (topic : Topic) (value : Option Envelope) (stamp : Stamp) :
    Prop where
  parked : (handleEvent db topic value stamp).err ≠ none → ∃ env ∈ value, Premature db topic env
  settled : (handleEvent db topic value stamp).err = none →
    (handleEvent db topic value stamp).db = db ∨ ∃ t u o, ∃ env ∈ value,
      Applied db t env stamp u o (handleEvent db topic value stamp).db

theorem applied_or_skipped (db : Db) (topic : Topic) (value : Option Envelope) (stamp : Stamp) :
    (handleEvent db topic value stamp).db = db ∨ (handleEvent db topic value stamp).err = none ∧
      ∃ t u o, ∃ env ∈ value,
        Applied db t env stamp u o (handleEvent db topic value stamp).db := by
  cases value with
  | none => exact Or.inl (by rw [handleEvent_none])
  | some env =>
  cases ht : topicTrigger topic with
  | none => exact Or.inl (by simp [handleEvent, ht])
  | some t =>
    obtain ⟨hdb, -⟩ | ⟨hdb, -⟩ | ⟨hdb, -⟩ | ⟨herr, u, o, ha⟩ := handleEvent_cases db ht env stamp
    · exact Or.inl hdb
    · exact Or.inl hdb
    · exact Or.inl hdb
    · exact Or.inr ⟨herr, t, u, o, env, rfl, ha⟩

/-- With a free row id, a message is parked only for being premature exactly if no text of
it is refused, unless it is premature besides. -/
theorem parksOnlyPremature_iff {db : Db} {stamp : Stamp}
    (hrow : db.outbox.find? stamp.rowId = none) (topic : Topic) (value : Option Envelope) :
    ParksOnlyPremature db topic value stamp ↔
      ∀ env ∈ value, Unusable db topic env → Premature db topic env := by
  have hsettled := (applied_or_skipped db topic value stamp).imp_right And.right
  cases value with
  | none =>
    refine ⟨fun _ _ henv => (nomatch henv), fun _ => ⟨fun herr => ?_, fun _ => hsettled⟩⟩
    rw [handleEvent_none] at herr
    exact absurd rfl herr
  | some env =>
    have hclash : ¬Clashes db topic env stamp := fun hc => hc.1 hrow
    simp only [Option.mem_def, Option.some.injEq, forall_eq']
    constructor
    · intro h hun
      obtain ⟨env', henv, hp⟩ := h.parked ((err_ne_none_iff ..).mpr (Or.inl hun))
      cases henv
      exact hp
    · refine fun h => ⟨fun herr => ⟨env, rfl, ?_⟩, fun _ => hsettled⟩
      obtain hun | ⟨-, hp | hc⟩ := (err_ne_none_iff ..).mp herr
      · exact h hun
      · exact hp
      · exact absurd hc hclash

/-- The message of a saga whose id is not a UUID. -/
def unnamedSaga : Envelope :=
  (PaymentService.processedEvent (.ofKey "k1" 1) "not-a-uuid" 5).payload

/-- It fails, in the tables of a new deployment. -/
theorem not_parksOnlyPremature_unnamedSaga :
    Db.empty.outbox.find? (Stamp.ofKey "k2" 2).rowId = none ∧
      (handleEvent .empty .paymentProcessed (some unnamedSaga) (.ofKey "k2" 2)).err ≠ none ∧
      uuidIn unnamedSaga.sagaId = none := by
  decide +kernel

/-- A message of an order that does not exist is skipped. -/
theorem parksOnlyPremature_unknownOrder :
    ParksOnlyPremature .empty .inventoryReserved
      (some (PaymentService.processedEvent (.ofKey "k1" 1) (uuidOut 10) 5).payload)
      (.ofKey "k2" 2) :=
  (parksOnlyPremature_iff rfl _ _).mpr fun env henv ⟨_, hun⟩ => by
    cases henv
    obtain hnul | ⟨-, hnone⟩ := hun
    · exact absurd hnul (by decide +kernel)
    · exact absurd hnone (by decide +kernel)

end Choreography.OrderService

/-! ## A message that holds up others -/

namespace Choreography.Kafka.Order

open OrderService (Db Handled)

/-- The result of a poll lists a partition once. -/
structure Fetches extends Fetch where
  nodup : partitions.Nodup

/-- How the dispatch of a fetch stands : whether a call has failed, the tables, and the
calls so far. -/
structure Dispatched where
  failed : Bool
  db : Db
  calls : List Call

section Handler

-- `event.Parse`, and the stamps that the calls draw
variable (parse : ByteArray → Option Envelope) (stamps : Partition → ℕ → Stamp)

/-- The handler on a record. -/
def handleRecord (db : Db) (r : Polled) : Handled :=
  OrderService.handleEvent db r.partition.1 (parse r.message.value) (stamps r.partition r.offset)

/-- Dispatch a record to the handler, unless an earlier one of the fetch failed. -/
def dispatchEvent (acc : Dispatched) (r : Polled) : Dispatched :=
  if acc.failed then acc
  else
    { failed := (handleRecord parse stamps acc.db r).err.isSome
      db := (handleRecord parse stamps acc.db r).db
      calls := acc.calls ++ [⟨r.partition, r.offset, r.message.value,
        headerValue r.message.headers traceparentHeader,
        if (handleRecord parse stamps acc.db r).err.isSome then .failed else .completed⟩] }

/-- What the dispatch of the given records leaves. -/
def dispatched (db : Db) (records : List Polled) : Dispatched :=
  records.foldl (dispatchEvent parse stamps) ⟨false, db, []⟩

/-- An iteration of the loop with `HandleEvent` as the handler. -/
def Consumer.runEvents (logs : Logs) (s : Client) (db : Db) (fetch : Fetch) (commitOk : Bool) :
    Client × Db :=
  let rewind := rewindOf fetch.partitions (s.recordsOf logs fetch)
  let d := dispatched parse stamps db (s.fetched logs fetch)
  let s' := { s.pollFetches logs fetch with calls := s.calls ++ d.calls }
  (if d.failed then s'.setOffsets rewind
    else if commitOk then s'.commitUncommittedOffsets
    else { s' with running := false }, d.db)

/-- The handler fails on the record. -/
def StuckOn (db : Db) (r : Polled) : Prop :=
  ∃ env ∈ parse r.message.value,
    OrderService.Stuck db r.partition.1 env (stamps r.partition r.offset)

/-- The tables when the turn of the partition behind `pre` comes. -/
def turn (logs : Logs) (s : Client) (db : Db) (fetch : Fetch) (pre : List Partition) : Db :=
  (dispatched parse stamps db (pre.flatMap (s.recordsOf logs fetch))).db

/-- Every partition whose first record is accepted when its turn comes has that record
handled. -/
def ReachesAccepted (logs : Logs) (s : Client) (db : Db) (fetch : Fetch) : Prop :=
  ∀ pre p post r, fetch.partitions = pre ++ p :: post →
    (s.recordsOf logs fetch p).head? = some r →
    (handleRecord parse stamps (turn parse stamps logs s db fetch pre) r).err = none →
    Completed (dispatched parse stamps db (s.fetched logs fetch)).calls r.partition r.offset

variable {parse stamps}

theorem err_handleRecord_eq_none {db : Db} {r : Polled} :
    (handleRecord parse stamps db r).err = none ↔ ¬StuckOn parse stamps db r := by
  unfold handleRecord StuckOn
  cases parse r.message.value with
  | none => simp [OrderService.handleEvent_none]
  | some env =>
    simp only [Option.mem_def, Option.some.injEq, exists_eq_left', ← OrderService.err_ne_none_iff,
      not_not]

theorem dispatched_append (db : Db) (records records' : List Polled) :
    dispatched parse stamps db (records ++ records') =
      records'.foldl (dispatchEvent parse stamps) (dispatched parse stamps db records) :=
  List.foldl_append

/-- A failure ends the dispatch. -/
theorem foldl_dispatchEvent_of_failed {acc : Dispatched} (h : acc.failed = true) :
    ∀ records : List Polled, records.foldl (dispatchEvent parse stamps) acc = acc
  | [] => rfl
  | r :: records => by
    rw [List.foldl_cons, dispatchEvent, if_pos h]
    exact foldl_dispatchEvent_of_failed h records

/-- The calls are added one after another. -/
theorem prefix_foldl_dispatchEvent (parse : ByteArray → Option Envelope)
    (stamps : Partition → ℕ → Stamp) : ∀ (records : List Polled) (acc : Dispatched),
      List.IsPrefix acc.calls (records.foldl (dispatchEvent parse stamps) acc).calls
  | [], acc => List.prefix_refl acc.calls
  | r :: records, acc => by
    refine List.IsPrefix.trans ?_ (prefix_foldl_dispatchEvent parse stamps records _)
    unfold dispatchEvent
    split_ifs
    · exact List.prefix_refl acc.calls
    · exact List.prefix_append acc.calls _
    · exact List.prefix_append acc.calls _

/-- Without a record that the handler is stuck on, the dispatch does not fail. -/
theorem failed_foldl_dispatchEvent : ∀ (records : List Polled) (acc : Dispatched),
    acc.failed = false →
    ((records.foldl (dispatchEvent parse stamps) acc).failed = false ↔
      Along (fun db r => (handleRecord parse stamps db r).db)
        (fun db r => ¬StuckOn parse stamps db r) acc.db records)
  | [], acc, hacc => by simp [Along, hacc]
  | r :: records, acc, hacc => by
    rw [List.foldl_cons, Along, ← err_handleRecord_eq_none]
    cases herr : (handleRecord parse stamps acc.db r).err with
    | some e =>
      rw [foldl_dispatchEvent_of_failed (by simp [dispatchEvent, hacc, herr])]
      simp [dispatchEvent, hacc, herr]
    | none =>
      rw [failed_foldl_dispatchEvent records _ (by simp [dispatchEvent, hacc, herr])]
      simp [dispatchEvent, hacc]

/-- The calls are on the records dispatched. -/
theorem partition_of_mem_calls : ∀ (records : List Polled) (acc : Dispatched) (c : Call),
    c ∈ (records.foldl (dispatchEvent parse stamps) acc).calls →
    c ∈ acc.calls ∨ ∃ r ∈ records, r.partition = c.partition
  | [], acc, c, hc => Or.inl hc
  | r :: records, acc, c, hc => by
    obtain hc | ⟨r', hr', hp⟩ := partition_of_mem_calls records _ c hc
    · unfold dispatchEvent at hc
      split_ifs at hc
      · exact Or.inl hc
      all_goals
        obtain hc | hc := List.mem_append.mp hc
        · exact Or.inl hc
        · rw [List.mem_singleton.mp hc]
          exact Or.inr ⟨r, List.mem_cons_self, rfl⟩
    · exact Or.inr ⟨r', List.mem_cons_of_mem r hr', hp⟩

theorem partition_of_mem_recordsOf {logs : Logs} {s : Client} {fetch : Fetch} {p : Partition}
    {r : Polled} (h : r ∈ s.recordsOf logs fetch p) : r.partition = p := by
  obtain ⟨i, hi, rfl⟩ := List.getElem_of_mem h
  simp [Client.recordsOf]

/-- The accepted first record of a partition is handled exactly if no record before it is
one that the handler is stuck on. -/
theorem completed_iff {logs : Logs} {s : Client} {db : Db} {fetch : Fetches}
    {pre post : List Partition} {p : Partition} {r : Polled}
    (hsplit : fetch.partitions = pre ++ p :: post)
    (hr : (s.recordsOf logs fetch.toFetch p).head? = some r)
    (hok : (handleRecord parse stamps (turn parse stamps logs s db fetch.toFetch pre) r).err =
      none) :
    Completed (dispatched parse stamps db (s.fetched logs fetch.toFetch)).calls r.partition
        r.offset ↔
      Along (fun db r => (handleRecord parse stamps db r).db)
        (fun db r => ¬StuckOn parse stamps db r) db
        (pre.flatMap (s.recordsOf logs fetch.toFetch)) := by
  obtain ⟨rest, hrest⟩ : ∃ rest, s.recordsOf logs fetch.toFetch p = r :: rest :=
    List.head?_eq_some_iff.mp hr
  have hfetched : s.fetched logs fetch.toFetch = pre.flatMap (s.recordsOf logs fetch.toFetch) ++
      (r :: rest ++ post.flatMap (s.recordsOf logs fetch.toFetch)) := by
    rw [Client.fetched, hsplit, List.flatMap_append, List.flatMap_cons, hrest]
  have hp : r.partition = p := partition_of_mem_recordsOf (hrest ▸ List.mem_cons_self)
  rw [← failed_foldl_dispatchEvent (pre.flatMap (s.recordsOf logs fetch.toFetch)) ⟨false, db, []⟩
    rfl, ← dispatched, hfetched, dispatched_append]
  cases hf : (dispatched parse stamps db (pre.flatMap (s.recordsOf logs fetch.toFetch))).failed with
  | true =>
    -- the dispatch has stopped among the partitions before
    rw [foldl_dispatchEvent_of_failed hf]
    refine iff_of_false ?_ (by simp)
    rintro ⟨c, hc, hcp, -⟩
    obtain hc | ⟨r', hr', hrp⟩ := partition_of_mem_calls _ _ c hc
    · exact absurd hc List.not_mem_nil
    · obtain ⟨q, hq, hr'⟩ := List.mem_flatMap.mp hr'
      have hqp : q = p := by
        rw [← partition_of_mem_recordsOf hr', hrp, hcp, hp]
      have hnodup := fetch.nodup
      rw [hsplit, List.nodup_append] at hnodup
      exact hnodup.2.2 q hq p List.mem_cons_self hqp
  | false =>
    refine iff_of_true ?_ rfl
    rw [List.cons_append, List.foldl_cons]
    have hpre := prefix_foldl_dispatchEvent parse stamps
      (rest ++ post.flatMap (s.recordsOf logs fetch.toFetch))
      (dispatchEvent parse stamps
        (dispatched parse stamps db (pre.flatMap (s.recordsOf logs fetch.toFetch))) r)
    rw [turn] at hok
    refine ⟨⟨r.partition, r.offset, r.message.value,
      headerValue r.message.headers traceparentHeader, .completed⟩, hpre.subset ?_, rfl, rfl, rfl⟩
    simp [dispatchEvent, hf, hok]

end Handler

/-- In an iteration, every partition whose first record is accepted when its turn comes is
reached exactly if none of these partitions is behind a record that the handler is stuck on
when its own turn comes. -/
theorem reachesAccepted_iff (parse : ByteArray → Option Envelope)
    (stamps : Partition → ℕ → Stamp) (logs : Logs) (s : Client) (db : Db) (fetch : Fetches) :
    ReachesAccepted parse stamps logs s db fetch.toFetch ↔
      ∀ pre p post r, fetch.partitions = pre ++ p :: post →
        (s.recordsOf logs fetch.toFetch p).head? = some r →
        ¬StuckOn parse stamps (turn parse stamps logs s db fetch.toFetch pre) r →
        Along (fun db r => (handleRecord parse stamps db r).db)
          (fun db r => ¬StuckOn parse stamps db r) db
          (pre.flatMap (s.recordsOf logs fetch.toFetch)) := by
  simp only [ReachesAccepted, ← err_handleRecord_eq_none]
  constructor
  · intro h pre p post r hsplit hr hok
    have hdone := h pre p post r hsplit hr hok
    simpa only [err_handleRecord_eq_none] using (completed_iff hsplit hr hok).mp hdone
  · intro h pre p post r hsplit hr hok
    have hclear := h pre p post r hsplit hr hok
    exact (completed_iff hsplit hr hok).mpr
      (by simpa only [err_handleRecord_eq_none] using hclear)

/-! ### The loop with this handler -/

section Loop

variable {parse : ByteArray → Option Envelope} {stamps : Partition → ℕ → Stamp}

/-- The place of a record. -/
def Polled.key (r : Polled) : Partition × ℕ := (r.partition, r.offset)

theorem foldl_dispatch_congr {h h' : Partition → ℕ → Bool} :
    ∀ (records : List Polled) (acc : Bool × List Call),
      (∀ r ∈ records, h r.partition r.offset = h' r.partition r.offset) →
      records.foldl (dispatch h) acc = records.foldl (dispatch h') acc
  | [], _, _ => rfl
  | r :: records, acc, heq => by
    rw [List.foldl_cons, List.foldl_cons, dispatch, dispatch, heq r List.mem_cons_self]
    exact foldl_dispatch_congr records _ fun r hr => heq r (List.mem_cons_of_mem _ hr)

/-- The answers of the handler, as a function of the place of the record. -/
theorem exists_answers (parse : ByteArray → Option Envelope)
    (stamps : Partition → ℕ → Stamp) : ∀ (records : List Polled) (acc : Dispatched),
    (records.map Polled.key).Nodup → acc.failed = false → ∃ h : Partition → ℕ → Bool,
      ∀ calls, records.foldl (dispatch h) (false, calls ++ acc.calls) =
        ((records.foldl (dispatchEvent parse stamps) acc).failed,
          calls ++ (records.foldl (dispatchEvent parse stamps) acc).calls)
  | [], acc, _, hacc => ⟨fun _ _ => true, fun calls => by simp [hacc]⟩
  | r :: records, acc, hnodup, hacc => by
    obtain ⟨hr, hnodup⟩ := List.nodup_cons.mp hnodup
    cases herr : (handleRecord parse stamps acc.db r).err with
    | some e =>
      refine ⟨fun _ _ => false, fun calls => ?_⟩
      have hstop : (dispatchEvent parse stamps acc r).failed = true := by
        simp [dispatchEvent, hacc, herr]
      rw [List.foldl_cons, List.foldl_cons, foldl_dispatchEvent_of_failed hstop]
      simp [dispatch, foldl_dispatch_of_failed, dispatchEvent, hacc, herr]
    | none =>
      obtain ⟨h', ih⟩ := exists_answers parse stamps records (dispatchEvent parse stamps acc r)
        hnodup (by simp [dispatchEvent, hacc, herr])
      refine ⟨fun p n => decide ((p, n) = r.key) || h' p n, fun calls => ?_⟩
      rw [List.foldl_cons, List.foldl_cons, ← ih calls]
      have hagree : ∀ r' ∈ records, (decide ((r'.partition, r'.offset) = r.key) ||
          h' r'.partition r'.offset) = h' r'.partition r'.offset := by
        intro r' hr'
        have hne : (r'.partition, r'.offset) ≠ r.key := fun heq =>
          hr (List.mem_map.mpr ⟨r', hr', heq⟩)
        simp [hne]
      rw [foldl_dispatch_congr records _ hagree]
      simp [dispatch, dispatchEvent, hacc, herr, Polled.key]

theorem nodup_fetched (logs : Logs) (s : Client) (fetch : Fetches) :
    ((s.fetched logs fetch.toFetch).map Polled.key).Nodup := by
  rw [Client.fetched, List.map_flatMap, List.nodup_flatMap]
  refine ⟨fun p _ => ?_, fetch.nodup.imp fun {p q} hpq => ?_⟩
  · rw [List.nodup_iff_injective_getElem]
    intro i j hij
    simp only [Client.recordsOf, List.getElem_map, List.getElem_mapIdx, Polled.key,
      Prod.mk.injEq, true_and] at hij
    exact Fin.ext (Nat.add_left_cancel hij)
  · intro k hp hq
    obtain ⟨r, hr, rfl⟩ := List.mem_map.mp hp
    obtain ⟨r', hr', hkey⟩ := List.mem_map.mp hq
    have hpart := congrArg Prod.fst hkey
    simp only [Polled.key, partition_of_mem_recordsOf hr, partition_of_mem_recordsOf hr'] at hpart
    exact hpq hpart.symm

/-- An iteration with this handler is one of the loop, with the handler's answers. -/
theorem exists_run_eq (parse : ByteArray → Option Envelope) (stamps : Partition → ℕ → Stamp)
    (logs : Logs) (s : Client) (db : Db) (fetch : Fetches) (commitOk : Bool) :
    ∃ h, Consumer.run logs s fetch.toFetch h commitOk =
        (Consumer.runEvents parse stamps logs s db fetch.toFetch commitOk).1 ∧
      ((∃ r ∈ s.fetched logs fetch.toFetch, h r.partition r.offset = false) ↔
        (dispatched parse stamps db (s.fetched logs fetch.toFetch)).failed = true) := by
  obtain ⟨h, hrun⟩ := exists_answers parse stamps
    (s.fetched logs fetch.toFetch) ⟨false, db, []⟩ (nodup_fetched logs s fetch) rfl
  have hrun := hrun s.calls
  rw [List.append_nil, ← dispatched] at hrun
  refine ⟨h, ?_, ?_⟩
  · simp only [Consumer.run, Consumer.runEvents, hrun]
  · rw [← foldl_dispatch_fst h _ s.calls, hrun]

/-- A fetch whose first record the handler is stuck on leaves the tables and the positions
as they were. The next poll finds the same records again. -/
theorem runEvents_of_stuck {logs : Logs} {s : Client} {db : Db} {fetch : Fetches} {r : Polled}
    (hr : (s.fetched logs fetch.toFetch).head? = some r) (hstuck : StuckOn parse stamps db r)
    (commitOk : Bool) :
    (Consumer.runEvents parse stamps logs s db fetch.toFetch commitOk).2 = db ∧
      (Consumer.runEvents parse stamps logs s db fetch.toFetch commitOk).1.position =
        s.position := by
  obtain ⟨rest, hrest⟩ := List.head?_eq_some_iff.mp hr
  obtain ⟨e, herr⟩ := Option.ne_none_iff_exists'.mp
    (mt err_handleRecord_eq_none.mp (not_not_intro hstuck))
  have hdb : (handleRecord parse stamps db r).db = db := by
    refine (OrderService.applied_or_skipped db r.partition.1 (parse r.message.value)
      (stamps r.partition r.offset)).resolve_right fun ⟨hnone, _⟩ => ?_
    exact nomatch herr.symm.trans hnone
  have hstop : (dispatchEvent parse stamps ⟨false, db, []⟩ r).failed = true := by
    simp [dispatchEvent, herr]
  have hd : dispatched parse stamps db (s.fetched logs fetch.toFetch) =
      dispatchEvent parse stamps ⟨false, db, []⟩ r := by
    rw [dispatched, hrest, List.foldl_cons, foldl_dispatchEvent_of_failed hstop]
  constructor
  · simp [Consumer.runEvents, hd, dispatchEvent, hdb]
  · obtain ⟨h, hrun, hfail⟩ := exists_run_eq parse stamps logs s db fetch commitOk
    rw [← hrun]
    exact position_run_of_failed commitOk (hfail.mpr (hd ▸ hstop))

end Loop

/-! ### A fetch that never gets on -/

/-- A record of one byte in `inventory.reserved`, and another in `payment.processed`. -/
def parkedLogs : Logs
  | (.inventoryReserved, 0) => [⟨[], ⟨#[1]⟩⟩]
  | (.paymentProcessed, 0) => [⟨[], ⟨#[2]⟩⟩]
  | _ => []

/-- They are the events of the saga 10 with the keys k1 and k2. -/
def parkedParse (value : ByteArray) : Option Envelope :=
  some (if value = ⟨#[1]⟩ then OrderService.sagaEvent "k1" else OrderService.sagaEvent "k2")

def parkedStamps : Partition → ℕ → Stamp := fun p _ =>
  .ofKey "" (if p.1 = .inventoryReserved then 3 else 4)

/-- The order 10 is PENDING. -/
def pendingOrder : Db :=
  Db.empty.step (.createOrder (uuidOut 10) "customer" "SKU-1" (.lit 1) (.lit 5) (.ofKey "" 1))

/-- The reservation is listed before the capture. -/
def parkedFetch : Fetches := ⟨⟨[(.inventoryReserved, 0), (.paymentProcessed, 0)], fun _ => 1⟩, by
  decide⟩

/-- The capture is accepted in the state of the tables, and it is not handled : the
iteration stops at the reservation, with the order PENDING and both positions as before. -/
theorem not_reachesAccepted_parkedFetch :
    ¬ReachesAccepted parkedParse parkedStamps parkedLogs .init pendingOrder parkedFetch.toFetch ∧
      pendingOrder.status 10 = some .pending ∧
      (Consumer.runEvents parkedParse parkedStamps parkedLogs .init pendingOrder
        parkedFetch.toFetch true).2.status 10 = some .pending ∧
      ∀ p ∈ parkedFetch.partitions, (Consumer.runEvents parkedParse parkedStamps parkedLogs .init
        pendingOrder parkedFetch.toFetch true).1.position p = 0 := by
  refine ⟨fun h => ?_, by decide +kernel⟩
  have hdone := h [(.inventoryReserved, 0)] (.paymentProcessed, 0) []
    ⟨(.paymentProcessed, 0), 0, ⟨[], ⟨#[2]⟩⟩⟩ rfl rfl (by decide +kernel)
  revert hdone
  decide +kernel

end Choreography.Kafka.Order
