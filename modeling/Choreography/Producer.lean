import Choreography.RelayRuns

/-!
# Inventory's producer

`Producer::publish` hands a message to the client's out-queue, flushes, and takes an empty
queue for an acknowledgement. The client works on its own : at any time it delivers a queued
message, or gives it up, and then reports that to a delivery callback that nobody has set. A
message that is given up leaves the queue as one that is delivered does.

`acknowledged_iff` is the exact condition for what the relay relies on : whenever a row is
about to be marked, a message with its topic, key and payload is acknowledged if and only
if the length of the queue is never read when the queue is empty, the message was given up,
and no equal one was delivered.
-/

namespace Choreography

open Prog

namespace InventoryService

/-! ## Publishing -/

/-- What the producer asks of the broker's client. -/
inductive ClientRequest
  | produce (msg : Record)
  | flush
  | outqLen

/-- `false` is an exception of the client. -/
abbrev ClientRequest.Answer : ClientRequest → Type
  | .produce _ => Bool
  | .flush => Unit
  | .outqLen => ℕ

abbrev ClientProc := RelayProc ClientRequest.Answer

abbrev Exchanges := Trace (RelayRequest.Answer ClientRequest.Answer)

namespace Producer

def produce (msg : Record) : ClientProc Bool :=
  request (RelayRequest.publish (ClientRequest.produce msg))

def flush : ClientProc Unit := request (RelayRequest.publish ClientRequest.flush)

def outqLen : ClientProc ℕ := request (RelayRequest.publish ClientRequest.outqLen)

/-- `Producer::publish`. Its exceptions are `false`. -/
def publish (row : OutboxRow) : ClientProc Bool := do
  if ← produce row.record then
    flush
    let left ← outqLen
    if left > 0 then return false
    else return true
  else return false

/-- The exchanges of a message that the queue has taken and that is flushed. -/
def flushed (msg : Record) : Exchanges :=
  [⟨.publish (.produce msg), true⟩, ⟨.publish .flush, ()⟩]

/-- What is left of a publish after its exchanges. -/
theorem publish_reaches {row : OutboxRow} {σ : Exchanges} {p : ClientProc Bool}
    (h : Reaches (publish row) σ p) :
    (σ = [] ∧ p.next = some (.publish (.produce row.record))) ∨
      (σ = [⟨.publish (.produce row.record), false⟩] ∧ p = ret false) ∨
      (σ = [⟨.publish (.produce row.record), true⟩] ∧ p.next = some (.publish .flush)) ∨
      (σ = flushed row.record ∧
        p = call (.publish .outqLen) fun left : ℕ => if left > 0 then ret false else ret true) ∨
      ∃ left : ℕ, σ = flushed row.record ++ [⟨.publish .outqLen, left⟩] ∧
        p = ret (decide (left = 0)) := by
  obtain ⟨rfl, rfl⟩ | ⟨ok, σ₁, rfl, hproduce⟩ := reaches_call.mp h
  · exact Or.inl ⟨rfl, rfl⟩
  cases ok with
  | false =>
    obtain ⟨rfl, rfl⟩ := reaches_ret.mp hproduce
    exact Or.inr (Or.inl ⟨rfl, rfl⟩)
  | true =>
    obtain ⟨rfl, rfl⟩ | ⟨⟨⟩, σ₂, rfl, hflush⟩ := reaches_call.mp hproduce
    · exact Or.inr (Or.inr (Or.inl ⟨rfl, rfl⟩))
    obtain ⟨rfl, rfl⟩ | ⟨left, σ₃, rfl, hlen⟩ := reaches_call.mp hflush
    · exact Or.inr (Or.inr (Or.inr (Or.inl ⟨rfl, rfl⟩)))
    have hret : (if left > 0 then ret false else ret true : ClientProc Bool) =
        ret (decide (left = 0)) := by
      cases left <;> rfl
    change Reaches (if left > 0 then ret false else ret true) σ₃ p at hlen
    rw [hret, reaches_ret] at hlen
    obtain ⟨rfl, rfl⟩ := hlen
    exact Or.inr (Or.inr (Or.inr (Or.inr ⟨left, rfl, rfl⟩)))

end Producer

/-- Where a drain is, as far as its marks are concerned. -/
inductive Position (limit : ℤ) : Exchanges → ClientProc Drained → Prop
  /-- It is neither about to read the length of the queue, nor to mark a row. -/
  | other {τ : Exchanges} {p : ClientProc Drained} (hlen : p.next ≠ some (.publish .outqLen))
      (hmark : ∀ id, p.next ≠ some (.markPublished id)) : Position limit τ p
  /-- The message of a row is flushed. -/
  | flushed {τ : Exchanges} {rows : List OutboxRow} {row : OutboxRow} {k : ℕ → ClientProc Drained}
      (hrows : ⟨.selectPending limit, some rows⟩ ∈ τ) (hrow : row ∈ rows)
      (hempty : (k 0).next = some (.markPublished row.id))
      (hleft : ∀ left, 0 < left → (k left).next = some (.markFailed row.id)) :
      Position limit (τ ++ Producer.flushed row.record) (call (.publish .outqLen) k)
  /-- And the queue was empty then. -/
  | marking {τ : Exchanges} {rows : List OutboxRow} {row : OutboxRow}
      {p : ClientProc Drained} (hrows : ⟨.selectPending limit, some rows⟩ ∈ τ) (hrow : row ∈ rows)
      (hp : p.next = some (.markPublished row.id)) :
      Position limit
        (τ ++ (Producer.flushed row.record ++ [⟨.publish .outqLen, (0 : ℕ)⟩])) p

/-- A loop that is busy with a row of the batch. -/
theorem position_of_handling {failure : Bool → RelayError} {limit : ℤ} {row : OutboxRow}
    {rest rows : List OutboxRow} {published : ℕ} {τ σ : Exchanges} {p : ClientProc Drained}
    (hrows : ⟨.selectPending limit, some rows⟩ ∈ τ) (hrow : row ∈ rows)
    (h : Handling Producer.publish failure row rest published σ p) :
    Position limit (τ ++ σ) p := by
  cases h with
  | publishing hpub =>
    obtain ⟨rfl, hnext⟩ | ⟨-, hret⟩ | ⟨rfl, hnext⟩ | ⟨rfl, hcall⟩ | ⟨left, -, hret⟩ :=
      Producer.publish_reaches hpub
    · exact .other (by simp_all [next]) (by simp_all [next])
    · exact nomatch hret
    · exact .other (by simp_all [next]) (by simp_all [next])
    · rw [hcall]
      refine .flushed hrows hrow rfl fun left hleft => ?_
      change ((if left > 0 then ret false else ret true : ClientProc Bool) >>=
        afterPublish Producer.publish failure row rest published).next = _
      rw [if_pos hleft]
      rfl
    · exact nomatch hret
  | @published _ ok hpub =>
    obtain ⟨-, hnext⟩ | ⟨-, hret⟩ | ⟨-, hnext⟩ | ⟨-, hcall⟩ | ⟨left, rfl, hret⟩ :=
      Producer.publish_reaches hpub
    · exact nomatch hnext
    · rw [Prog.ret.inj hret]
      exact .other (by simp [afterPublish, next]) (by simp [afterPublish, next])
    · exact nomatch hnext
    · exact nomatch hcall
    · obtain rfl := Prog.ret.inj hret
      cases left with
      | zero => exact .marking hrows hrow rfl
      | succ left => exact .other (by simp [afterPublish, next]) (by simp [afterPublish, next])
  | unmarked hpub => exact .other (by simp [next]) (by simp [next])
  | unpublished marked hpub => exact .other (by simp [next]) (by simp [next])

/-- Every drain is at one of these positions. -/
theorem position_of_reaches {relay : Relay} {τ : Exchanges} {p : ClientProc Drained}
    (h : Reaches (drainOnceWith Producer.publish relay) τ p) : Position relay.batchSize τ p := by
  obtain ⟨rfl, rfl⟩ | ⟨rows, rfl, rfl⟩ | ⟨-, rfl⟩ | ⟨rows, τ', rfl, hloop⟩ := drain_reaches h
  · exact .other (fun h => nomatch h) fun _ h => nomatch h
  · exact .other (fun h => nomatch h) fun _ h => nomatch h
  · exact .other (fun h => nomatch h) fun _ h => nomatch h
  obtain ⟨done, rest, τ₁, rfl, -, ⟨rfl, rfl⟩ | ⟨row, rest', σ, rfl, rfl, hh⟩⟩ :=
    drainRows_reaches hloop
  · cases rest <;> exact .other (fun h => nomatch h) fun _ h => nomatch h
  · have hrows : ⟨.selectPending relay.batchSize, some (done ++ row :: rest')⟩ ∈
        (⟨.selectPending relay.batchSize, some (done ++ row :: rest')⟩ :: ⟨.commit, true⟩ :: τ₁ :
          Exchanges) := List.mem_cons_self
    exact position_of_handling hrows (by simp) hh

/-! ## The client -/

/-- A drain : what is left of it, and what it has exchanged. -/
structure Progress where
  prog : ClientProc Drained
  trace : Exchanges

/-- The relay with its database and its client. -/
structure Client where
  outbox : Outbox
  /-- The out-queue, leftovers of earlier publishes included. -/
  queue : List Record
  /-- What the broker has acknowledged, and what the client has given up. -/
  acked : List Record
  failed : List Record
  drain : Option Progress

inductive ClientLabel
  | insert (stamp : Stamp) (ob : OutboxInsert)
  /-- The relay calls `drain_once`. -/
  | start
  | act (choice : Choice)
  /-- The broker acknowledges a message of the queue. -/
  | deliver (n : ℕ)
  /-- The client gives up a message of the queue. -/
  | fail (n : ℕ)

/-- The topic, the key and the payload are the same. -/
def SameMessage (m m' : Record) : Prop := m.topic = m'.topic ∧ m.key = m'.key ∧ m.value = m'.value

/-- The last message that the queue has taken from a drain. -/
def lastProduced (τ : Exchanges) : Option Record :=
  (τ.filterMap fun e => match e with
    | ⟨.publish (.produce m), true⟩ => some m
    | _ => none).getLast?

namespace Client

def init (outbox : Outbox) : Client := ⟨outbox, [], [], [], none⟩

/-- The database, which only this relay reads. -/
def db (w : Client) : Relays Unit := ⟨w.outbox, [], fun _ => none⟩

/-- The answer of the database, with the outbox and the queue after it. -/
def answerDb (w : Client) (c : Choice) (q : Request) :
    q.Answer × Outbox × List Record :=
  ((w.db.answer () c q).1, (w.db.answer () c q).2.1, w.queue)

/-- The answer to a request, with the outbox and the queue after it. -/
def answer (w : Client) (c : Choice) :
    (q : RelayRequest ClientRequest) → q.Answer ClientRequest.Answer × Outbox × List Record
  | .selectPending limit => w.answerDb c (.selectPending limit)
  | .commit => w.answerDb c .commit
  | .publish (.produce m) => (c.ok, w.outbox, if c.ok then w.queue ++ [m] else w.queue)
  | .publish .flush => ((), w.outbox, w.queue)
  | .publish .outqLen => (w.queue.length, w.outbox, w.queue)
  | .markPublished id => w.answerDb c (.markPublished id)
  | .markFailed id => w.answerDb c (.markFailed id)

def step (relay : Relay) (w : Client) : ClientLabel → Client
  | .insert stamp ob =>
    match insertOutbox stamp w.outbox ob with
    | .ok outbox => { w with outbox := outbox }
    | .error _ => w
  | .start =>
    match w.drain with
    | some ⟨.call _ _, _⟩ => w
    | _ => { w with drain := some ⟨drainOnceWith Producer.publish relay, []⟩ }
  | .act c =>
    match w.drain with
    | some ⟨.call q k, τ⟩ =>
      { w with
        outbox := (w.answer c q).2.1
        queue := (w.answer c q).2.2
        drain := some ⟨k (w.answer c q).1, τ ++ [⟨q, (w.answer c q).1⟩]⟩ }
    | _ => w
  | .deliver n =>
    match w.queue[n]? with
    | some m => { w with queue := w.queue.eraseIdx n, acked := m :: w.acked }
    | none => w
  | .fail n =>
    match w.queue[n]? with
    | some m => { w with queue := w.queue.eraseIdx n, failed := m :: w.failed }
    | none => w

/-- Whenever a row is about to be marked, its message is acknowledged. -/
def Acknowledges (w : Client) : Prop :=
  ∀ d, w.drain = some d → ∀ id, d.prog.next = some (.markPublished id) →
    ∀ row, w.outbox.find? id = some row → ∃ m ∈ w.acked, SameMessage m row.record

/-- The relay reads the length of the queue, which is empty, while the message that it has
just produced was given up and no equal one was acknowledged. -/
def Misreads (w : Client) : ClientLabel → Prop
  | .act _ => w.queue = [] ∧ ∃ d, w.drain = some d ∧ d.prog.next = some (.publish .outqLen) ∧
      ∃ m ∈ w.failed, lastProduced d.trace = some m ∧ ¬∃ m' ∈ w.acked, SameMessage m' m
  | _ => False

/-! ## What a step does -/

variable {relay : Relay} {w : Client}

/-- What is known of a client : where its drain is, and where its messages are. -/
structure Inv (relay : Relay) (w : Client) : Prop where
  reaches : ∀ d, w.drain = some d →
    Reaches (drainOnceWith Producer.publish relay) d.trace d.prog
  rows : ∀ d, w.drain = some d → ∀ n (rows : List OutboxRow),
    ⟨.selectPending n, some rows⟩ ∈ d.trace → ∀ row ∈ rows, Relays.Holds w.outbox row
  produced : ∀ d, w.drain = some d → ∀ m, ⟨.publish (.produce m), true⟩ ∈ d.trace →
    m ∈ w.queue ∨ m ∈ w.acked ∨ m ∈ w.failed

theorem kept_answer (w : Client) (c : Choice) (q : RelayRequest ClientRequest) :
    Kept w.outbox (w.answer c q).2.1 := by
  cases q with
  | selectPending limit => exact Relays.kept_answer w.db () c (.selectPending limit)
  | commit => exact Relays.kept_answer w.db () c .commit
  | publish p => cases p <;> exact .refl _
  | markPublished id => exact Relays.kept_answer w.db () c (.markPublished id)
  | markFailed id => exact Relays.kept_answer w.db () c (.markFailed id)

theorem queue_answer (w : Client) (c : Choice) (q : RelayRequest ClientRequest) :
    w.queue ⊆ (w.answer c q).2.2 := by
  cases q with
  | publish p =>
    cases p with
    | produce m =>
      simp only [answer]
      split_ifs
      · exact List.subset_append_left _ _
      · exact List.Subset.refl _
    | _ => exact List.Subset.refl _
  | _ => exact List.Subset.refl _

/-- A message leaves the queue for one of the other two. -/
theorem mem_of_eraseIdx {queue : List Record} {n : ℕ} {m m' : Record}
    (hn : queue[n]? = some m) (hm' : m' ∈ queue) : m' ∈ queue.eraseIdx n ∨ m' = m := by
  obtain ⟨j, hj⟩ := List.mem_iff_getElem?.mp hm'
  by_cases hjn : j = n
  · subst hjn
    exact Or.inr (Option.some.inj (hj.symm.trans hn))
  · exact Or.inl (List.mem_eraseIdx_iff_getElem?.mpr ⟨j, hjn, hj⟩)

/-- The client after the exchange of its drain. -/
def exchange (w : Client) (c : Choice) (q : RelayRequest ClientRequest)
    (k : q.Answer ClientRequest.Answer → ClientProc Drained) (τ : Exchanges) : Client :=
  { w with
    outbox := (w.answer c q).2.1
    queue := (w.answer c q).2.2
    drain := some ⟨k (w.answer c q).1, τ ++ [⟨q, (w.answer c q).1⟩]⟩ }

/-- A step starts a drain, is one exchange of it, or leaves the drain alone. -/
theorem step_cases (relay : Relay) (w : Client) (l : ClientLabel) :
    (w.step relay l = { w with drain := some ⟨drainOnceWith Producer.publish relay, []⟩ } ∧
      l = .start) ∨
      (∃ c q k τ, l = .act c ∧ w.drain = some ⟨.call q k, τ⟩ ∧
        w.step relay l = w.exchange c q k τ) ∨
      (¬w.Misreads l ∧ (w.step relay l).drain = w.drain ∧
        Kept w.outbox (w.step relay l).outbox ∧ w.acked ⊆ (w.step relay l).acked ∧
        w.failed ⊆ (w.step relay l).failed ∧ ∀ m ∈ w.queue, m ∈ (w.step relay l).queue ∨
          m ∈ (w.step relay l).acked ∨ m ∈ (w.step relay l).failed) := by
  have hsame : Kept w.outbox w.outbox ∧ w.acked ⊆ w.acked ∧ w.failed ⊆ w.failed ∧
      ∀ m ∈ w.queue, m ∈ w.queue ∨ m ∈ w.acked ∨ m ∈ w.failed :=
    ⟨.refl _, List.Subset.refl _, List.Subset.refl _, fun _ hm => Or.inl hm⟩
  cases l with
  | insert stamp ob =>
    refine Or.inr (Or.inr ⟨id, ?_⟩)
    simp only [step]
    split
    next outbox hins => exact ⟨rfl, kept_insertOutbox hins, hsame.2⟩
    next => exact ⟨rfl, hsame⟩
  | start =>
    simp only [step]
    split
    · exact Or.inr (Or.inr ⟨id, rfl, hsame⟩)
    · exact Or.inl ⟨rfl, trivial⟩
  | act c =>
    simp only [step]
    split
    next q k τ hd => exact Or.inr (Or.inl ⟨c, q, k, τ, rfl, hd, rfl⟩)
    next hd =>
      refine Or.inr (Or.inr ⟨?_, rfl, hsame⟩)
      rintro ⟨-, d, hdrain, hnext, -⟩
      obtain ⟨p, τ⟩ := d
      cases p with
      | ret a => exact nomatch hnext
      | call q k => exact hd q k τ hdrain
  | deliver n =>
    refine Or.inr (Or.inr ⟨id, ?_⟩)
    simp only [step]
    split
    next m hm =>
      refine ⟨rfl, .refl _, List.subset_cons_self _ _, List.Subset.refl _, fun m' hm' => ?_⟩
      obtain hleft | rfl := mem_of_eraseIdx hm hm'
      · exact Or.inl hleft
      · exact Or.inr (Or.inl List.mem_cons_self)
    next => exact ⟨rfl, hsame⟩
  | fail n =>
    refine Or.inr (Or.inr ⟨id, ?_⟩)
    simp only [step]
    split
    next m hm =>
      refine ⟨rfl, .refl _, List.Subset.refl _, List.subset_cons_self _ _, fun m' hm' => ?_⟩
      obtain hleft | rfl := mem_of_eraseIdx hm hm'
      · exact Or.inl hleft
      · exact Or.inr (Or.inr List.mem_cons_self)
    next => exact ⟨rfl, hsame⟩

theorem Inv.exchange (h : Inv relay w) {c : Choice} {q : RelayRequest ClientRequest}
    {k : q.Answer ClientRequest.Answer → ClientProc Drained} {τ : Exchanges}
    (hd : w.drain = some ⟨.call q k, τ⟩) :
    Inv relay (w.exchange c q k τ) := by
  have hall : ∀ P : Progress → Prop,
      P ⟨k (w.answer c q).1, τ ++ [⟨q, (w.answer c q).1⟩]⟩ →
      ∀ d, (w.exchange c q k τ).drain = some d → P d := by
    intro P hP d hdrain
    rwa [← Option.some.inj hdrain]
  refine ⟨hall _ ((h.reaches _ hd).snoc _), hall _ fun n rows hm row hrow => ?_,
    hall _ fun m hm => ?_⟩
  · obtain hm | hm := List.mem_append.mp hm
    · exact (h.rows _ hd n rows hm row hrow).mono (kept_answer w c q)
    · cases q with
      | selectPending n' =>
        obtain ⟨-, hrows⟩ := Sigma.mk.inj_iff.mp (List.mem_singleton.mp hm)
        obtain ⟨-, rfl, hfinds⟩ := Relays.found_rows (eq_of_heq hrows).symm
        exact ⟨row, (hfinds.mem (List.mem_of_mem_take hrow)).1, rfl⟩
      | _ => simp at hm
  · obtain hm | hm := List.mem_append.mp hm
    · exact (h.produced _ hd m hm).imp_left fun hq => queue_answer w c q hq
    · cases q with
      | publish p =>
        obtain ⟨hmsg, hok⟩ := Sigma.mk.inj_iff.mp (List.mem_singleton.mp hm)
        obtain rfl := RelayRequest.publish.inj hmsg
        have hok : true = c.ok := eq_of_heq hok
        left
        simp [Client.exchange, answer, ← hok]
      | _ => simp at hm

theorem Inv.step (h : Inv relay w) (l : ClientLabel) : Inv relay (w.step relay l) := by
  obtain ⟨heq, -⟩ | ⟨c, q, k, τ, -, hd, heq⟩ | ⟨-, hdrain, hkept, hacked, hfailed, hqueue⟩ :=
    step_cases relay w l
  · rw [heq]
    refine ⟨fun d hd => ?_, fun d hd => ?_, fun d hd => ?_⟩ <;> rw [← Option.some.inj hd]
    · exact .refl _
    · exact fun _ _ hm => nomatch hm
    · exact fun _ hm => nomatch hm
  · rw [heq]
    exact h.exchange hd
  · refine ⟨fun d hd => h.reaches d (hdrain ▸ hd), fun d hd n rows hm row hrow => ?_,
      fun d hd m hm => ?_⟩
    · exact (h.rows d (hdrain ▸ hd) n rows hm row hrow).mono hkept
    · obtain hm | hm | hm := h.produced d (hdrain ▸ hd) m hm
      · exact hqueue m hm
      · exact Or.inr (Or.inl (hacked hm))
      · exact Or.inr (Or.inr (hfailed hm))

/-- The row that is marked next was fetched with the content that it has. -/
theorem Inv.marking (h : Inv relay w) {d : Progress} (hd : w.drain = some d) {id : Uuid}
    (hnext : d.prog.next = some (.markPublished id)) :
    (∃ τ, d.trace = τ ++ [⟨.publish .outqLen, (0 : ℕ)⟩]) ∧ w.outbox.find? id ≠ none := by
  obtain ⟨p, τ⟩ := d
  have hpos := position_of_reaches (h.reaches _ hd)
  cases hpos with
  | other _ hmark => exact absurd hnext (hmark id)
  | flushed => exact nomatch hnext
  | @marking τ₀ rows row _ hrows hrow hp =>
    obtain rfl : row.id = id :=
      RelayRequest.markPublished.inj (Option.some.inj (hp.symm.trans hnext))
    obtain ⟨row', hrow', -⟩ :=
      h.rows _ hd _ rows (List.mem_append_left _ hrows) row hrow
    exact ⟨⟨τ₀ ++ Producer.flushed row.record, (List.append_assoc _ _ _).symm⟩, by simp [hrow']⟩

/-- The relay reads the length of the queue. -/
theorem Inv.acknowledges_outqLen (h : Inv relay w) {c : Choice} {k : ℕ → ClientProc Drained}
    {τ : Exchanges} (hd : w.drain = some ⟨.call (.publish .outqLen) k, τ⟩) :
    (w.exchange c (.publish .outqLen) k τ).Acknowledges ↔ ¬w.Misreads (.act c) := by
  have hpos := position_of_reaches (h.reaches _ hd)
  cases hpos with
  | other hlen _ => exact absurd rfl hlen
  | marking _ _ hp => exact nomatch hp
  | @flushed τ₀ rows row _ hrows hrow hempty hleft =>
    have hlast : lastProduced (τ₀ ++ Producer.flushed row.record) = some row.record := by
      simp [lastProduced, Producer.flushed, List.filterMap_append]
    cases hqueue : w.queue with
    | cons m queue =>
      refine ⟨fun _ hmis => ?_, fun _ d hdrain id hnext => ?_⟩
      · exact nomatch hqueue.symm.trans hmis.1
      · -- the row is not marked, since the queue is not empty
        rw [← Option.some.inj hdrain] at hnext
        have hfailed := hleft w.queue.length (by simp [hqueue])
        exact nomatch hfailed.symm.trans hnext
    | nil =>
      have hzero : (w.answer c (.publish .outqLen)).1 = (0 : ℕ) := congrArg List.length hqueue
      obtain ⟨row', hrow', hins⟩ := h.rows _ hd _ rows (List.mem_append_left _ hrows) row hrow
      have hrec : row'.record = row.record := congrArg OutboxInsert.record hins
      constructor
      · intro hack hmis
        obtain ⟨-, d, hdrain, -, m, -, hm, hnone⟩ := hmis
        rw [hd] at hdrain
        rw [← Option.some.inj hdrain] at hm
        obtain rfl := Option.some.inj (hlast.symm.trans hm)
        have hnext : (k (w.answer c (.publish .outqLen)).1).next =
            some (.markPublished row.id) := by
          rw [hzero]
          exact hempty
        obtain ⟨m', hm', hsame⟩ := hack _ rfl row.id hnext row' hrow'
        exact hnone ⟨m', hm', hrec ▸ hsame⟩
      · intro hmis d hdrain id hnext row'' hrow''
        rw [← Option.some.inj hdrain, hzero, hempty] at hnext
        obtain rfl := RelayRequest.markPublished.inj (Option.some.inj hnext)
        obtain rfl := Option.some.inj (hrow'.symm.trans hrow'')
        by_contra hnone
        rw [hrec] at hnone
        have hwhere := h.produced _ hd row.record (by simp [Producer.flushed])
        rw [hqueue] at hwhere
        obtain hm | hm | hm := hwhere
        · exact nomatch hm
        · exact hnone ⟨row.record, hm, rfl, rfl, rfl⟩
        · exact hmis ⟨hqueue, _, hd, rfl, row.record, hm, hlast, hnone⟩

/-- A step keeps the messages of marked rows acknowledged exactly if it does not misread
the queue. -/
theorem Inv.acknowledges_step (h : Inv relay w) (hack : w.Acknowledges) (l : ClientLabel) :
    (w.step relay l).Acknowledges ↔ ¬w.Misreads l := by
  have hnext := h.step l
  obtain ⟨heq, rfl⟩ | ⟨c, q, k, τ, rfl, hd, heq⟩ | ⟨hmis, hdrain, hkept, hacked, -, -⟩ :=
    step_cases relay w l
  · rw [heq]
    refine ⟨fun _ hmis => hmis, fun _ d hd id hmark => ?_⟩
    rw [← Option.some.inj hd] at hmark
    exact nomatch hmark
  · by_cases hq : q = .publish .outqLen
    · subst hq
      rw [heq]
      exact h.acknowledges_outqLen hd
    · rw [heq] at hnext ⊢
      refine ⟨fun _ hmis => ?_, fun _ d hd' id hmark => ?_⟩
      · obtain ⟨-, d, hdrain, hlen, -⟩ := hmis
        rw [hd] at hdrain
        rw [← Option.some.inj hdrain] at hlen
        exact hq (Option.some.inj hlen)
      · -- a row is marked only after the length of the queue is read
        obtain ⟨⟨τ₀, hτ⟩, -⟩ := hnext.marking hd' hmark
        rw [← Option.some.inj hd'] at hτ
        have hlast := List.singleton_inj.mp (List.append_inj' hτ rfl).2
        exact absurd (congrArg Sigma.fst hlast) hq
  · refine ⟨fun _ => hmis, fun _ d hd id hmark row hrow => ?_⟩
    rw [hdrain] at hd
    obtain ⟨-, hfind⟩ := h.marking hd hmark
    obtain ⟨row₀, hrow₀⟩ := Option.ne_none_iff_exists'.mp hfind
    obtain ⟨row', hrow', hins, -⟩ := hkept id row₀ hrow₀
    obtain rfl := Option.some.inj (hrow'.symm.trans hrow)
    obtain ⟨m, hm, hsame⟩ := hack d hd id hmark row₀ hrow₀
    have hrec : row'.record = row₀.record := congrArg OutboxInsert.record hins
    exact ⟨m, hacked hm, hrec ▸ hsame⟩

theorem inv_init (relay : Relay) (outbox : Outbox) : Inv relay (init outbox) where
  reaches _ hd := nomatch hd
  rows _ hd := nomatch hd
  produced _ hd := nomatch hd

/-- Throughout a run from any outbox, a row is marked only if its message is acknowledged,
exactly if no step misreads the queue. -/
theorem acknowledged_iff (relay : Relay) (outbox : Outbox) (ls : List ClientLabel) :
    Throughout (step relay) Acknowledges (init outbox) ls ↔
      Along (step relay) (fun w l => ¬w.Misreads l) (init outbox) ls :=
  throughout_iff_along (I := Inv relay) (fun _ l h => h.step l)
    (fun _ l h hack => h.acknowledges_step hack l)
    (inv_init relay outbox) (fun _ hd => nomatch hd)

/-- The outbox row of a reservation. -/
def reserved : OutboxRow :=
  OutboxInsert.row (.ofKey "k1" 1)
    ⟨"reservation", uuidOut 10, "InventoryReserved", .inventoryReserved,
      Envelope.new (.ofKey "k1" 1) "InventoryReserved" (uuidOut 10) "" .null, ""⟩

/-- The outbox of a new reservation. -/
def reservedOutbox : Outbox := ⟨[reserved], List.nodup_singleton _⟩

/-- A drain whose one message is given up during the flush. -/
def givenUp : List ClientLabel :=
  let ok : Choice := ⟨true, false, [reserved]⟩
  [.start, .act ok, .act ok, .act ok, .fail 0, .act ok, .act ok]

/-- The message is given up, no message is acknowledged, and the row is marked next. -/
theorem not_acknowledged_givenUp :
    ¬Throughout (step (newRelay 100)) Acknowledges (init reservedOutbox) givenUp := by
  intro h
  obtain ⟨m, hm, -⟩ := h.last _ rfl 1 rfl reserved (by decide +kernel)
  exact nomatch hm

end Client

end InventoryService

end Choreography
