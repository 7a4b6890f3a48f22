import Choreography.Event
import Choreography.Runs

/-!
# The consumer loops

Each service reads its topics in a loop of its own over a Kafka client, which keeps for
every partition the position of the next poll and the committed offset that a restart
resumes from. A record is handled at least once if the committed offset never passes a
record that no handler call has completed on (`AtLeastOnce`).

Payment and Inventory poll one record at a time, skip a record whose handler fails,
and commit the next one that completes (`Loop.onMessage`). The commit passes the
skipped record, so the property lasts exactly until a record is committed on a partition
where an earlier one was given up (`atLeastOnce_iff`).

Order polls records of several partitions at once. When a handler fails, it rewinds
every partition of the fetch to its first record, and else commits them all
(`Order.Consumer.run`). There the property always holds
(`order_atLeastOnce`).
-/

namespace Choreography.Kafka

/-! ## Logs and handler calls -/

/-- A partition of a topic. -/
abbrev Partition := Topic × ℕ

/-- A message in the log of a partition. A header may have no value. -/
structure Message where
  headers : List (String × Option ByteArray)
  value : ByteArray

abbrev Logs := Partition → List Message

def traceparentHeader : String := "traceparent"

/-- How a handler call ends. -/
inductive Outcome
  | completed
  /-- The handler raises, or returns an error. -/
  | failed
  /-- The process is killed during the call. -/
  | killed
  deriving DecidableEq

/-- A call of the handler on the record at an offset of a partition. -/
structure Call where
  partition : Partition
  offset : ℕ
  value : ByteArray
  traceparent : ByteArray
  outcome : Outcome

/-- Some call on the record has completed. -/
def Completed (calls : List Call) (p : Partition) (n : ℕ) : Prop :=
  ∃ c ∈ calls, c.partition = p ∧ c.offset = n ∧ c.outcome = .completed

instance (calls : List Call) (p : Partition) (n : ℕ) : Decidable (Completed calls p n) :=
  inferInstanceAs (Decidable (∃ c ∈ calls, _))

/-- Every record below the committed offset has been handled. -/
def AtLeastOnce (committed : Partition → ℕ) (calls : List Call) : Prop :=
  ∀ p n, n < committed p → Completed calls p n

theorem Completed.append {calls : List Call} {p : Partition} {n : ℕ} (h : Completed calls p n)
    (calls' : List Call) : Completed (calls ++ calls') p n := by
  obtain ⟨c, hc, h⟩ := h
  exact ⟨c, List.mem_append_left calls' hc, h⟩

theorem AtLeastOnce.append {committed : Partition → ℕ} {calls : List Call}
    (h : AtLeastOnce committed calls) (calls' : List Call) :
    AtLeastOnce committed (calls ++ calls') :=
  fun p n hn => (h p n hn).append calls'

/-! ## The loops of Payment and Inventory -/

/-- A client that is polled for one record at a time. -/
structure Client where
  /-- The offset of the next poll. -/
  position : Partition → ℕ
  committed : Partition → ℕ
  /-- The loop runs; it ends with an exception, or with its process. -/
  running : Bool
  /-- The handler calls so far. -/
  calls : List Call

/-- A group that has committed nothing starts at the earliest offset. -/
def Client.init : Client := ⟨fun _ => 0, fun _ => 0, true, []⟩

/-- How a synchronous commit ends. -/
inductive Commit
  | done
  | failed
  /-- The process is killed before the commit. -/
  | killed
  deriving DecidableEq

inductive Event
  /-- A poll that returns no message, or an error. -/
  | idle
  /-- A poll that returns the next record of `p`, and how the rest of the iteration ends. -/
  | message (p : Partition) (outcome : Outcome) (commit : Commit)
  /-- The loop is told to stop. -/
  | stop
  /-- A new process resumes from the committed offsets. -/
  | restart

/-- What differs between the two loops. -/
structure Loop where
  /-- The trace context in the headers, without a result if reading it raises. -/
  traceparent : List (String × Option ByteArray) → Option ByteArray
  /-- A failed commit raises out of the loop. -/
  commitRaises : Bool

/-- The iteration on a record `msg` at offset `n` of `p`. -/
def Loop.onMessage (loop : Loop) (s : Client) (p : Partition) (n : ℕ) (msg : Message)
    (outcome : Outcome) (commit : Commit) : Client :=
  -- the poll has moved the position, whatever happens next
  let s := { s with position := Function.update s.position p (n + 1) }
  match loop.traceparent msg.headers with
  | none => { s with running := false }
  | some traceparent =>
    let s := { s with calls := s.calls ++ [⟨p, n, msg.value, traceparent, outcome⟩] }
    match outcome, commit with
    | .failed, _ => s
    | .killed, _ => { s with running := false }
    | .completed, .done => { s with committed := Function.update s.committed p (n + 1) }
    | .completed, .failed => { s with running := !loop.commitRaises }
    | .completed, .killed => { s with running := false }

def Loop.step (loop : Loop) (logs : Logs) (s : Client) : Event → Client
  | .idle => s
  | .message p outcome commit =>
    if s.running then
      match (logs p)[s.position p]? with
      | none => s
      | some msg => loop.onMessage s p (s.position p) msg outcome commit
    else s
  | .stop => { s with running := false }
  | .restart => { s with position := s.committed, running := true }

/-- Payment's loop. The last `traceparent` header counts, and decoding one that is not
UTF-8 raises outside the handler's `try`. -/
def Payment.KafkaConsumer.run : Loop where
  traceparent headers := headers.foldlM (fun tp h =>
    if h.1 = traceparentHeader then
      match h.2 with
      | none => some tp
      | some v => if v.validateUTF8 then some v else none
    else some tp) ByteArray.empty
  commitRaises := true

/-- Inventory's loop. The last `traceparent` header counts, and the result of
`commitSync` is ignored. -/
def Inventory.Consumer.run : Loop where
  traceparent headers := some (headers.foldl (fun tp h =>
    if h.1 = traceparentHeader then h.2.getD ByteArray.empty else tp) ByteArray.empty)
  commitRaises := false

/-- A polled record of the partition was given up : a call on it failed, and none has
completed. -/
def Abandoned (s : Client) (p : Partition) : Prop :=
  ∃ n < s.position p, (∃ c ∈ s.calls, c.partition = p ∧ c.offset = n ∧ c.outcome = .failed) ∧
    ¬Completed s.calls p n

/-- The iteration handles the next record of a partition, and commits it, while an
earlier one has been given up. -/
def Loop.Passes (loop : Loop) (logs : Logs) (s : Client) (e : Event) : Prop :=
  ∃ p msg, e = .message p .completed .done ∧ s.running = true ∧
    (logs p)[s.position p]? = some msg ∧ (loop.traceparent msg.headers).isSome ∧ Abandoned s p

/-- Some call on the record was not killed. -/
def Ended (calls : List Call) (p : Partition) (n : ℕ) : Prop :=
  ∃ c ∈ calls, c.partition = p ∧ c.offset = n ∧ c.outcome ≠ .killed

/-- Every record below the committed offset, and every record polled by a running loop,
has had a call that was not killed. -/
structure Tried (s : Client) : Prop where
  committed : ∀ p n, n < s.committed p → Ended s.calls p n
  polled : s.running = true → ∀ p n, n < s.position p → Ended s.calls p n

theorem ended_singleton {c : Call} (h : c.outcome ≠ .killed) : Ended [c] c.partition c.offset :=
  ⟨c, List.mem_singleton_self c, rfl, rfl, h⟩

variable {loop : Loop} {logs : Logs}

/-- An iteration commits its record after a completed call, or it commits nothing; and
if the loop goes on, the record has had its call. -/
theorem Loop.onMessage_cases (loop : Loop) (s : Client) (p : Partition) (n : ℕ) (msg : Message)
    (outcome : Outcome) (commit : Commit) :
    (outcome = .completed ∧ commit = .done ∧ (loop.traceparent msg.headers).isSome ∧
      ∃ tp, loop.onMessage s p n msg outcome commit =
        { s with
          position := Function.update s.position p (n + 1)
          committed := Function.update s.committed p (n + 1)
          calls := s.calls ++ [⟨p, n, msg.value, tp, .completed⟩] }) ∨
    (¬(outcome = .completed ∧ commit = .done ∧ (loop.traceparent msg.headers).isSome) ∧
      (loop.onMessage s p n msg outcome commit).committed = s.committed ∧
      ∃ calls, (loop.onMessage s p n msg outcome commit).calls = s.calls ++ calls ∧
        ((loop.onMessage s p n msg outcome commit).running = true →
          (loop.onMessage s p n msg outcome commit).position =
              Function.update s.position p (n + 1) ∧ Ended calls p n)) := by
  unfold Loop.onMessage
  cases htp : loop.traceparent msg.headers with
  | none => exact Or.inr ⟨by simp, rfl, [], by simp, by simp⟩
  | some tp =>
    cases outcome with
    | failed =>
      exact Or.inr ⟨by simp, rfl, [_], rfl, fun _ => ⟨rfl, ended_singleton Outcome.noConfusion⟩⟩
    | killed => exact Or.inr ⟨by simp, rfl, [_], rfl, by simp⟩
    | completed =>
      cases commit with
      | done => exact Or.inl ⟨rfl, rfl, rfl, tp, rfl⟩
      | failed =>
        exact Or.inr ⟨by simp, rfl, [_], rfl, fun _ => ⟨rfl, ended_singleton Outcome.noConfusion⟩⟩
      | killed => exact Or.inr ⟨by simp, rfl, [_], rfl, by simp⟩

theorem Ended.append {calls : List Call} {p : Partition} {n : ℕ} (h : Ended calls p n)
    (calls' : List Call) : Ended (calls ++ calls') p n := by
  obtain ⟨c, hc, h⟩ := h
  exact ⟨c, List.mem_append_left calls' hc, h⟩

/-- A call on the record at the position extends what has been tried by one. -/
theorem ended_update {s : Client} (h : ∀ p n, n < s.position p → Ended s.calls p n)
    {p : Partition} {calls : List Call} (hc : Ended calls p (s.position p)) (q : Partition) (n : ℕ)
    (hn : n < Function.update s.position p (s.position p + 1) q) :
    Ended (s.calls ++ calls) q n := by
  rw [Function.update_apply] at hn
  split_ifs at hn with hq
  · subst hq
    rcases Nat.lt_succ_iff_lt_or_eq.mp hn with hn | rfl
    · exact (h q n hn).append calls
    · obtain ⟨c, hc, h'⟩ := hc
      exact ⟨c, List.mem_append_right s.calls hc, h'⟩
  · exact (h q n hn).append calls

theorem tried_step (s : Client) (e : Event) (h : Tried s) : Tried (loop.step logs s e) := by
  cases e with
  | idle => exact h
  | stop => exact ⟨h.committed, by simp [Loop.step]⟩
  | restart => exact ⟨h.committed, fun _ => h.committed⟩
  | message p outcome commit =>
    simp only [Loop.step]
    split_ifs with hrun
    · split
      · exact h
      next msg _ =>
      rcases loop.onMessage_cases s p (s.position p) msg outcome commit with
        ⟨-, -, -, tp, hs⟩ | ⟨-, hcom, calls, hcalls, hpos⟩
      · have hc : Ended [⟨p, s.position p, msg.value, tp, .completed⟩] p (s.position p) :=
          ended_singleton Outcome.noConfusion
        rw [hs]
        refine ⟨fun q n hn => ?_, fun _ => ended_update (h.polled hrun) hc⟩
        simp only [Function.update_apply] at hn
        split_ifs at hn with hq
        · refine ended_update (h.polled hrun) hc q n ?_
          rw [hq, Function.update_self]
          exact hn
        · exact (h.committed q n hn).append _
      · refine ⟨fun q n hn => ?_, fun hrun' q n hn => ?_⟩
        · rw [hcom] at hn
          rw [hcalls]
          exact (h.committed q n hn).append calls
        · obtain ⟨hpos, hend⟩ := hpos hrun'
          rw [hpos] at hn
          rw [hcalls]
          exact ended_update (h.polled hrun) hend q n hn
    · exact h

/-- An iteration that commits keeps the property exactly if no earlier record of the
partition was given up. -/
theorem atLeastOnce_commit_iff {s : Client} (h : Tried s) (hrun : s.running = true)
    (hq : AtLeastOnce s.committed s.calls) (p : Partition) (v tp : ByteArray) :
    AtLeastOnce (Function.update s.committed p (s.position p + 1))
      (s.calls ++ [⟨p, s.position p, v, tp, .completed⟩]) ↔ ¬Abandoned s p := by
  constructor
  · rintro hq' ⟨n, hn, -, hnot⟩
    obtain ⟨c, hc, hp, ho, hout⟩ := hq' p n (by rw [Function.update_self]; omega)
    rcases List.mem_append.mp hc with hc | hc
    · exact hnot ⟨c, hc, hp, ho, hout⟩
    · rw [List.mem_singleton.mp hc] at ho
      dsimp only at ho
      omega
  · intro hnot q n hn
    rw [Function.update_apply] at hn
    split_ifs at hn with hqp
    · subst hqp
      rcases Nat.lt_succ_iff_lt_or_eq.mp hn with hn | rfl
      · by_contra hcom
        have hcom' : ¬Completed s.calls q n := fun h => hcom (h.append _)
        obtain ⟨c, hc, hp, ho, hout⟩ := h.polled hrun q n hn
        refine hnot ⟨n, hn, ⟨c, hc, hp, ho, ?_⟩, hcom'⟩
        cases hco : c.outcome with
        | failed => rfl
        | killed => exact absurd hco hout
        | completed => exact absurd ⟨c, hc, hp, ho, hco⟩ hcom'
      · exact ⟨_, List.mem_append_right _ (List.mem_singleton_self _), rfl, rfl, rfl⟩
    · exact (hq q n hn).append _

theorem atLeastOnce_step_iff (s : Client) (e : Event) (h : Tried s)
    (hq : AtLeastOnce s.committed s.calls) :
    AtLeastOnce (loop.step logs s e).committed (loop.step logs s e).calls ↔
      ¬loop.Passes logs s e := by
  cases e with
  | idle => exact ⟨fun _ ⟨_, _, he, _⟩ => by simp at he, fun _ => hq⟩
  | stop => exact ⟨fun _ ⟨_, _, he, _⟩ => by simp at he, fun _ => hq⟩
  | restart => exact ⟨fun _ ⟨_, _, he, _⟩ => by simp at he, fun _ => hq⟩
  | message p outcome commit =>
    simp only [Loop.step]
    split_ifs with hrun
    · split
      next hnone =>
        refine ⟨fun _ => ?_, fun _ => hq⟩
        rintro ⟨p', msg, he, -, hmsg, -⟩
        obtain ⟨rfl, -, -⟩ : p = p' ∧ outcome = .completed ∧ commit = .done := by simpa using he
        simp [hmsg] at hnone
      next msg hmsg =>
      rcases loop.onMessage_cases s p (s.position p) msg outcome commit with
        ⟨rfl, rfl, hsome, tp, hs⟩ | ⟨hnot, hcom, calls, hcalls, -⟩
      · rw [hs, atLeastOnce_commit_iff h hrun hq]
        refine not_congr ⟨fun hab => ⟨p, msg, rfl, hrun, hmsg, hsome, hab⟩, ?_⟩
        rintro ⟨p', msg', he, -, -, -, hab⟩
        obtain rfl : p = p' := by simpa using he
        exact hab
      · rw [hcom, hcalls]
        refine ⟨fun _ => ?_, fun _ => hq.append calls⟩
        rintro ⟨p', msg', he, -, hmsg', hsome, -⟩
        obtain ⟨rfl, hout, hdone⟩ : p = p' ∧ outcome = .completed ∧ commit = .done := by
          simpa using he
        rw [hmsg, Option.some.injEq] at hmsg'
        exact hnot ⟨hout, hdone, hmsg' ▸ hsome⟩
    · refine ⟨fun _ => ?_, fun _ => hq⟩
      rintro ⟨p', msg, -, hrun', -⟩
      exact hrun hrun'

theorem tried_init : Tried Client.init :=
  ⟨fun _ _ hn => absurd hn (Nat.not_lt_zero _), fun _ _ _ hn => absurd hn (Nat.not_lt_zero _)⟩

theorem Loop.atLeastOnce_iff (loop : Loop) (logs : Logs) (events : List Event) :
    Throughout (loop.step logs) (fun s => AtLeastOnce s.committed s.calls) Client.init events ↔
      Along (loop.step logs) (fun s e => ¬loop.Passes logs s e) Client.init events :=
  throughout_iff_along tried_step atLeastOnce_step_iff tried_init
    fun _ _ hn => absurd hn (Nat.not_lt_zero _)

/-- Payment and Inventory handle every record at least once as long as no record is
committed on a partition where an earlier one was given up, and no longer. -/
theorem payment_inventory_atLeastOnce_iff (logs : Logs) (events : List Event) :
    (Throughout (Payment.KafkaConsumer.run.step logs) (fun s => AtLeastOnce s.committed s.calls)
        Client.init events ↔
      Along (Payment.KafkaConsumer.run.step logs)
        (fun s e => ¬Payment.KafkaConsumer.run.Passes logs s e) Client.init events) ∧
    (Throughout (Inventory.Consumer.run.step logs) (fun s => AtLeastOnce s.committed s.calls)
        Client.init events ↔
      Along (Inventory.Consumer.run.step logs)
        (fun s e => ¬Inventory.Consumer.run.Passes logs s e) Client.init events) :=
  ⟨Payment.KafkaConsumer.run.atLeastOnce_iff logs events,
    Inventory.Consumer.run.atLeastOnce_iff logs events⟩

/-- Two messages in the first partition of every topic. -/
def twoMessages : Logs := fun p => if p.2 = 0 then [⟨[], .empty⟩, ⟨[], .empty⟩] else []

/-- The first message fails, and the second is handled and committed. -/
def failThenHandle : List Event :=
  [.message (.orderCancelled, 0) .failed .done, .message (.orderCancelled, 0) .completed .done]

/-- The committed offset has passed the first message, which was never handled. -/
theorem not_atLeastOnce_failThenHandle :
    ¬Throughout (Payment.KafkaConsumer.run.step twoMessages)
        (fun s => AtLeastOnce s.committed s.calls) Client.init failThenHandle ∧
      ¬Throughout (Inventory.Consumer.run.step twoMessages)
        (fun s => AtLeastOnce s.committed s.calls) Client.init failThenHandle := by
  refine ⟨fun h => ?_, fun h => ?_⟩
  · exact absurd (h.last (.orderCancelled, 0) 0 (by decide)) (by decide)
  · exact absurd (h.last (.orderCancelled, 0) 0 (by decide)) (by decide)

/-! ## The loop of Order -/

namespace Order

/-- A client that is polled for records of several partitions at once. -/
structure Client where
  /-- The offset of the next poll. -/
  position : Partition → ℕ
  /-- The offset after the last polled record, until it is committed or rewound. -/
  head : Partition → Option ℕ
  committed : Partition → ℕ
  running : Bool
  /-- The handler calls so far. -/
  calls : List Call

/-- A group that has committed nothing starts at the earliest offset. -/
def Client.init : Client := ⟨fun _ => 0, fun _ => none, fun _ => 0, true, []⟩

/-- The partitions that a poll returns, in order, with at most `count` records each. -/
structure Fetch where
  partitions : List Partition
  count : Partition → ℕ

structure Polled where
  partition : Partition
  offset : ℕ
  message : Message

/-- The records of a partition in a fetch : the next ones of its log. -/
def Client.recordsOf (logs : Logs) (s : Client) (fetch : Fetch) (p : Partition) : List Polled :=
  (((logs p).drop (s.position p)).take (fetch.count p)).mapIdx fun i msg =>
    ⟨p, s.position p + i, msg⟩

/-- The records of a fetch in the order of `EachRecord`. -/
def Client.fetched (logs : Logs) (s : Client) (fetch : Fetch) : List Polled :=
  fetch.partitions.flatMap (s.recordsOf logs fetch)

/-- `PollFetches` moves the position and the head past what it returns. -/
def Client.pollFetches (logs : Logs) (s : Client) (fetch : Fetch) : Client :=
  { s with
    position := fun p =>
      if p ∈ fetch.partitions then s.position p + (s.recordsOf logs fetch p).length
      else s.position p
    head := fun p =>
      if p ∈ fetch.partitions ∧ s.recordsOf logs fetch p ≠ [] then
        some (s.position p + (s.recordsOf logs fetch p).length)
      else s.head p }

/-- `SetOffsets` resets the position and the head of the given partitions. -/
def Client.setOffsets (s : Client) (offsets : Partition → Option ℕ) : Client :=
  { s with
    position := fun p => (offsets p).getD (s.position p)
    head := fun p => if (offsets p).isSome then none else s.head p }

/-- `CommitUncommittedOffsets` commits the heads. -/
def Client.commitUncommittedOffsets (s : Client) : Client :=
  { s with
    committed := fun p => (s.head p).getD (s.committed p)
    head := fun _ => none }

/-- The first header of the given key, empty if there is none. -/
def headerValue (headers : List (String × Option ByteArray)) (key : String) : ByteArray :=
  match headers.find? fun h => h.1 = key with
  | some h => h.2.getD .empty
  | none => .empty

/-- Note the first fetched offset of a partition. -/
def capture (records : Partition → List Polled) (rewind : Partition → Option ℕ) (p : Partition) :
    Partition → Option ℕ :=
  match records p with
  | [] => rewind
  | r :: _ => Function.update rewind p (some r.offset)

/-- Each partition's first fetched offset. -/
def rewindOf (partitions : List Partition) (records : Partition → List Polled) :
    Partition → Option ℕ :=
  partitions.foldl (capture records) fun _ => none

/-- Dispatch a record, unless an earlier one of the fetch failed. `h` says on which
records the handler returns nil. -/
def dispatch (h : Partition → ℕ → Bool) (acc : Bool × List Call) (r : Polled) : Bool × List Call :=
  if acc.1 then acc
  else (!h r.partition r.offset, acc.2 ++ [⟨r.partition, r.offset, r.message.value,
    headerValue r.message.headers traceparentHeader,
    if h r.partition r.offset then .completed else .failed⟩])

/-- An iteration of the loop. -/
def Consumer.run (logs : Logs) (s : Client) (fetch : Fetch) (h : Partition → ℕ → Bool)
    (commitOk : Bool) : Client :=
  let rewind := rewindOf fetch.partitions (s.recordsOf logs fetch)
  let dispatched := (s.fetched logs fetch).foldl (dispatch h) (false, s.calls)
  let s' := { s.pollFetches logs fetch with calls := dispatched.2 }
  if dispatched.1 then s'.setOffsets rewind
  else if commitOk then s'.commitUncommittedOffsets
  else { s' with running := false }

inductive Event
  | iteration (fetch : Fetch) (h : Partition → ℕ → Bool) (commitOk : Bool)
  /-- The process is killed after the first `k` records of the fetch. -/
  | killed (fetch : Fetch) (h : Partition → ℕ → Bool) (k : ℕ)
  /-- The context is cancelled or the client closed. -/
  | stop
  /-- A new process resumes from the committed offsets. -/
  | restart

def step (logs : Logs) (s : Client) : Event → Client
  | .iteration fetch h commitOk => if s.running then Consumer.run logs s fetch h commitOk else s
  | .killed fetch h k =>
    if s.running then
      { s.pollFetches logs fetch with
        calls := (((s.fetched logs fetch).take k).foldl (dispatch h) (false, s.calls)).2
        running := false }
    else s
  | .stop => { s with running := false }
  | .restart => { s with position := s.committed, head := fun _ => none, running := true }

/-! ### What an iteration does -/

theorem rewindOf_apply (partitions : List Partition) (records : Partition → List Polled)
    (p : Partition) : rewindOf partitions records p =
      if p ∈ partitions then (records p).head?.map Polled.offset else none := by
  have key : ∀ (partitions : List Partition) (rewind : Partition → Option ℕ),
      partitions.foldl (capture records) rewind p =
      if p ∈ partitions then ((records p).head?.map Polled.offset).or (rewind p) else rewind p := by
    intro partitions
    induction partitions with
    | nil => simp
    | cons q partitions ih =>
      intro rewind
      rw [List.foldl_cons, ih]
      by_cases hq : p = q
      · subst hq
        cases hr : records p with
        | nil => simp [capture, hr]
        | cons r rs => simp [capture, hr]
      · cases hr : records q with
        | nil => simp [capture, hr, hq]
        | cons r rs => simp [capture, hr, hq]
  rw [rewindOf, key]
  simp

/-- The calls of a fetch are added to those before. -/
theorem prefix_dispatch (h : Partition → ℕ → Bool) :
    ∀ (records : List Polled) (acc : Bool × List Call),
      List.IsPrefix acc.2 (records.foldl (dispatch h) acc).2
  | [], acc => List.prefix_refl acc.2
  | r :: records, acc => by
    refine List.IsPrefix.trans ?_ (prefix_dispatch h records (dispatch h acc r))
    unfold dispatch
    split_ifs
    · exact List.prefix_refl acc.2
    · exact List.prefix_append acc.2 _
    · exact List.prefix_append acc.2 _

/-- A failure is remembered to the end of the fetch. -/
theorem foldl_dispatch_of_failed (h : Partition → ℕ → Bool) (calls : List Call) :
    ∀ records : List Polled, records.foldl (dispatch h) (true, calls) = (true, calls)
  | [] => rfl
  | r :: records => by
    rw [List.foldl_cons]
    exact foldl_dispatch_of_failed h calls records

/-- A fetch fails exactly if the handler fails on one of its records. -/
theorem foldl_dispatch_fst (h : Partition → ℕ → Bool) :
    ∀ (records : List Polled) (calls : List Call),
      (records.foldl (dispatch h) (false, calls)).1 = true ↔
        ∃ r ∈ records, h r.partition r.offset = false
  | [], calls => by simp
  | r :: records, calls => by
    rw [List.foldl_cons]
    cases hr : h r.partition r.offset with
    | true => simp [dispatch, hr, foldl_dispatch_fst h records]
    | false => simp [dispatch, hr, foldl_dispatch_of_failed]

/-- A fetch that does not fail completes a call on each of its records. -/
theorem completed_of_dispatch (h : Partition → ℕ → Bool) :
    ∀ (records : List Polled) (calls : List Call),
      (records.foldl (dispatch h) (false, calls)).1 = false →
      ∀ r ∈ records, Completed (records.foldl (dispatch h) (false, calls)).2 r.partition r.offset
  | [], _, _, _, hr => by simp at hr
  | r :: records, calls, hok, r', hr' => by
    rw [List.foldl_cons] at hok ⊢
    cases hr : h r.partition r.offset with
    | false => simp [dispatch, hr, foldl_dispatch_of_failed] at hok
    | true =>
      simp only [dispatch, hr, Bool.false_eq_true, if_false, Bool.not_true, if_true] at hok ⊢
      rcases List.mem_cons.mp hr' with rfl | hr'
      · have hpre := prefix_dispatch h records (false, calls ++ [⟨r'.partition, r'.offset,
          r'.message.value, headerValue r'.message.headers traceparentHeader, .completed⟩])
        exact ⟨_, hpre.subset (List.mem_append_right _ (List.mem_singleton_self _)), rfl, rfl, rfl⟩
      · exact completed_of_dispatch h records _ hok r' hr'

theorem mem_recordsOf {s : Client} {fetch : Fetch} {p : Partition} {n : ℕ} (logs : Logs)
    (hn : s.position p ≤ n) (hn' : n < s.position p + (s.recordsOf logs fetch p).length) :
    ∃ r ∈ s.recordsOf logs fetch p, r.partition = p ∧ r.offset = n := by
  have hlt : n - s.position p < (s.recordsOf logs fetch p).length := by omega
  refine ⟨_, List.getElem_mem hlt, ?_, ?_⟩
  · simp [Client.recordsOf]
  · simp only [Client.recordsOf, List.getElem_mapIdx]
    omega

theorem head?_recordsOf {s : Client} {fetch : Fetch} {p : Partition} {r : Polled} {logs : Logs}
    (h : (s.recordsOf logs fetch p).head? = some r) : r.offset = s.position p := by
  unfold Client.recordsOf at h
  cases hl : ((logs p).drop (s.position p)).take (fetch.count p) with
  | nil => simp [hl] at h
  | cons msg msgs =>
    simp only [hl, List.mapIdx_cons, List.head?_cons, Option.some.injEq] at h
    rw [← h]
    rfl

/-- A failed fetch is rewound : the position of every partition is as before it. -/
theorem position_run_of_failed {logs : Logs} {s : Client} {fetch : Fetch}
    {h : Partition → ℕ → Bool} (commitOk : Bool)
    (hfail : ∃ r ∈ s.fetched logs fetch, h r.partition r.offset = false) :
    (Consumer.run logs s fetch h commitOk).position = s.position := by
  funext p
  have hpos : (Consumer.run logs s fetch h commitOk).position p =
      ((rewindOf fetch.partitions (s.recordsOf logs fetch)) p).getD
        ((s.pollFetches logs fetch).position p) := by
    simp only [Consumer.run, (foldl_dispatch_fst h _ s.calls).mpr hfail, if_true]
    rfl
  rw [hpos, rewindOf_apply]
  simp only [Client.pollFetches]
  by_cases hp : p ∈ fetch.partitions
  · simp only [hp, if_true]
    cases hr : (s.recordsOf logs fetch p).head? with
    | none => simp [List.head?_eq_none_iff.mp hr]
    | some r => simp [head?_recordsOf hr]
  · simp [hp]

/-! ### What every iteration keeps -/

/-- Every record below the committed offset, and below the position of a running loop,
has been handled, and no head is past the position. -/
structure Safe (s : Client) : Prop where
  committed : AtLeastOnce s.committed s.calls
  polled : s.running = true → AtLeastOnce s.position s.calls
  head : s.running = true → ∀ p n, s.head p = some n → n ≤ s.position p

/-- A fetch without a failure has been handled up to the new position. -/
theorem atLeastOnce_pollFetches {logs : Logs} {s : Client} {fetch : Fetch}
    {h : Partition → ℕ → Bool} (hs : AtLeastOnce s.position s.calls)
    (hok : ((s.fetched logs fetch).foldl (dispatch h) (false, s.calls)).1 = false) :
    AtLeastOnce (s.pollFetches logs fetch).position
      ((s.fetched logs fetch).foldl (dispatch h) (false, s.calls)).2 := by
  obtain ⟨calls, hcalls⟩ := prefix_dispatch h (s.fetched logs fetch) (false, s.calls)
  intro p n hn
  rcases Nat.lt_or_ge n (s.position p) with hlt | hge
  · rw [← hcalls]
    exact (hs p n hlt).append calls
  · simp only [Client.pollFetches] at hn
    split_ifs at hn with hp
    · obtain ⟨r, hr, rfl, rfl⟩ := mem_recordsOf logs hge hn
      exact completed_of_dispatch h _ _ hok r (List.mem_flatMap.mpr ⟨r.partition, hp, hr⟩)
    · omega

theorem head_pollFetches (logs : Logs) {s : Client} (fetch : Fetch)
    (hs : ∀ p n, s.head p = some n → n ≤ s.position p) (p : Partition) (n : ℕ)
    (hn : (s.pollFetches logs fetch).head p = some n) :
    n ≤ (s.pollFetches logs fetch).position p := by
  have hpos : s.position p ≤ (s.pollFetches logs fetch).position p := by
    simp only [Client.pollFetches]
    split_ifs <;> omega
  by_cases hp : p ∈ fetch.partitions ∧ s.recordsOf logs fetch p ≠ []
  · simp only [Client.pollFetches, hp, if_true, ne_eq, not_false_eq_true, and_self,
      Option.some.injEq] at hn ⊢
    exact hn.ge
  · simp only [Client.pollFetches, hp, if_false] at hn
    exact (hs p n hn).trans hpos

theorem safe_run {logs : Logs} {s : Client} {fetch : Fetch} {h : Partition → ℕ → Bool}
    {commitOk : Bool} (hs : Safe s) (hrun : s.running = true) :
    Safe (Consumer.run logs s fetch h commitOk) := by
  obtain ⟨calls, hcalls⟩ := prefix_dispatch h (s.fetched logs fetch) (false, s.calls)
  have hcom : AtLeastOnce s.committed
      ((s.fetched logs fetch).foldl (dispatch h) (false, s.calls)).2 := by
    rw [← hcalls]
    exact hs.committed.append calls
  cases hfail : ((s.fetched logs fetch).foldl (dispatch h) (false, s.calls)).1 with
  | true =>
    have hpos := position_run_of_failed commitOk ((foldl_dispatch_fst h _ s.calls).mp hfail)
    have hshape : Consumer.run logs s fetch h commitOk =
        { s.pollFetches logs fetch with
          calls := ((s.fetched logs fetch).foldl (dispatch h) (false, s.calls)).2 }.setOffsets
          (rewindOf fetch.partitions (s.recordsOf logs fetch)) := by
      simp only [Consumer.run, hfail, if_true]
    refine ⟨?_, fun _ => ?_, fun _ p n hn => ?_⟩
    · rw [hshape]
      exact hcom
    · rw [hpos, hshape]
      change AtLeastOnce s.position ((s.fetched logs fetch).foldl (dispatch h) (false, s.calls)).2
      rw [← hcalls]
      exact (hs.polled hrun).append calls
    · rw [hpos]
      rw [hshape] at hn
      simp only [Client.setOffsets, Client.pollFetches, rewindOf_apply] at hn
      -- a polled partition that is not rewound had no record in the fetch
      by_cases hp : p ∈ fetch.partitions
      · cases hr : s.recordsOf logs fetch p with
        | nil => exact hs.head hrun p n (by simpa [hp, hr] using hn)
        | cons r rs => simp [hp, hr] at hn
      · exact hs.head hrun p n (by simpa [hp] using hn)
  | false =>
    have hpolled := atLeastOnce_pollFetches (hs.polled hrun) hfail
    have hhead := head_pollFetches logs fetch (hs.head hrun)
    cases commitOk with
    | false =>
      simp only [Consumer.run, hfail, Bool.false_eq_true, if_false]
      exact ⟨hcom, by simp, by simp⟩
    | true =>
      simp only [Consumer.run, hfail, Bool.false_eq_true, if_false, if_true]
      refine ⟨fun p n hn => ?_, fun _ => hpolled, fun _ p n hn => ?_⟩
      · simp only [Client.commitUncommittedOffsets] at hn
        cases hp : (s.pollFetches logs fetch).head p with
        | none =>
          simp only [hp, Option.getD_none] at hn
          exact hcom p n hn
        | some m =>
          simp only [hp, Option.getD_some] at hn
          exact hpolled p n (hn.trans_le (hhead p m hp))
      · simp [Client.commitUncommittedOffsets] at hn

theorem safe_step {logs : Logs} (s : Client) (e : Event) (hs : Safe s) : Safe (step logs s e) := by
  cases e with
  | iteration fetch h commitOk =>
    simp only [step]
    split_ifs with hrun
    · exact safe_run hs hrun
    · exact hs
  | killed fetch h k =>
    simp only [step]
    split_ifs with hrun
    · obtain ⟨calls, hcalls⟩ :=
        prefix_dispatch h ((s.fetched logs fetch).take k) (false, s.calls)
      refine ⟨?_, by simp, by simp⟩
      rw [← hcalls]
      exact hs.committed.append calls
    · exact hs
  | stop => exact ⟨hs.committed, by simp [step], by simp [step]⟩
  | restart => exact ⟨hs.committed, fun _ => hs.committed, by simp [step]⟩

theorem safe_init : Safe Client.init :=
  ⟨fun _ _ hn => absurd hn (Nat.not_lt_zero _), fun _ _ _ hn => absurd hn (Nat.not_lt_zero _),
    by simp [Client.init]⟩

end Order

/-- Order handles every record at least once : every record below a committed offset, or
below the position of the running loop, has been handled, and after an iteration in
which a handler failed, every partition of the fetch is back at its first record. -/
theorem order_atLeastOnce (logs : Logs) (events : List Order.Event) :
    Throughout (Order.step logs) (fun s => AtLeastOnce s.committed s.calls ∧
        (s.running = true → AtLeastOnce s.position s.calls)) Order.Client.init events ∧
      ∀ pre fetch h commitOk,
        List.IsPrefix (pre ++ [Order.Event.iteration fetch h commitOk]) events →
        (runFrom (Order.step logs) Order.Client.init pre).running = true →
        (∃ r ∈ (runFrom (Order.step logs) Order.Client.init pre).fetched logs fetch,
          h r.partition r.offset = false) →
        ∀ p ∈ fetch.partitions, ∀ first,
          ((runFrom (Order.step logs) Order.Client.init pre).recordsOf logs fetch p).head? =
            some first →
          (runFrom (Order.step logs) Order.Client.init
            (pre ++ [Order.Event.iteration fetch h commitOk])).position p = first.offset := by
  constructor
  · intro pre _
    have hsafe : Order.Safe (runFrom (Order.step logs) Order.Client.init pre) :=
      invariant_runFrom Order.safe_step pre Order.safe_init
    exact ⟨hsafe.committed, hsafe.polled⟩
  · intro pre fetch h commitOk _ hrun hfail p _ first hfirst
    rw [runFrom_append, runFrom_cons, runFrom_nil]
    simp only [Order.step, hrun, if_true]
    rw [Order.position_run_of_failed commitOk hfail, Order.head?_recordsOf hfirst]

/-- A fetch of two partitions. -/
def twoPartitions : Order.Fetch := ⟨[(.paymentProcessed, 0), (.inventoryReserved, 0)], fun _ => 2⟩

/-- A failure on the second partition rewinds the first as well. -/
theorem order_atLeastOnce_twoPartitions :
    (runFrom (Order.step twoMessages) Order.Client.init
      [.iteration twoPartitions (fun p _ => p.1 = .paymentProcessed) true]).position
        (.paymentProcessed, 0) = 0 :=
  (order_atLeastOnce twoMessages
      [.iteration twoPartitions (fun p _ => p.1 = .paymentProcessed) true]).2 []
    twoPartitions (fun p _ => p.1 = .paymentProcessed) true (List.prefix_refl _) rfl
    ⟨⟨(.inventoryReserved, 0), 0, ⟨[], .empty⟩⟩, by simp [Order.Client.fetched, twoPartitions,
      Order.Client.recordsOf, twoMessages, Order.Client.init], by decide⟩
    (.paymentProcessed, 0) (by decide) ⟨(.paymentProcessed, 0), 0, ⟨[], .empty⟩⟩ rfl

end Choreography.Kafka
