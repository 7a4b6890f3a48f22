import Choreography.Event
import Choreography.Programs

/-!
# The outbox relays

A drain fetches a batch of PENDING rows, in a transaction of its own, and publishes and
marks one row after the other, up to the first failure. The three services have the same
loop (`drain`); they differ in the error of a publish failure whose mark fails too, and in
what their constructors make of a batch size.

A drain is a program over the requests that leave the process : the SELECT and the COMMIT
of the fetch, the publisher, and the two UPDATEs, each of which may fail. `drain_reaches`
says where a drain can be and what it has exchanged by then, for every publisher.
-/

namespace Choreography

open Prog

/-! ## Requests -/

/-- What a relay asks of the database, and of a publisher with the requests `P`. -/
inductive RelayRequest (P : Type)
  /-- `SELECT … WHERE status = 'PENDING' ORDER BY created_at FOR UPDATE SKIP LOCKED LIMIT …`,
  in a transaction that it opens. -/
  | selectPending (limit : ℤ)
  /-- The end of that transaction. -/
  | commit
  | publish (p : P)
  | markPublished (id : Uuid)
  | markFailed (id : Uuid)

/-- `none` and `false` are errors of the database. The publisher answers in `A`. -/
abbrev RelayRequest.Answer {P : Type} (A : P → Type) : RelayRequest P → Type
  | .selectPending _ => Option (List OutboxRow)
  | .publish p => A p
  | .commit | .markPublished _ | .markFailed _ => Bool

abbrev RelayProc {P : Type} (A : P → Type) := Prog (RelayRequest.Answer A)

section

variable {P : Type} {A : P → Type}

namespace Repo

def selectPending (limit : ℤ) : RelayProc A (Option (List OutboxRow)) :=
  request (RelayRequest.selectPending limit)

def commit : RelayProc A Bool := request RelayRequest.commit

def markPublished (id : Uuid) : RelayProc A Bool := request (RelayRequest.markPublished id)

def markFailed (id : Uuid) : RelayProc A Bool := request (RelayRequest.markFailed id)

end Repo

/-! ## The drain -/

/-- The errors of a drain. -/
inductive RelayError
  | fetch
  | publish
  | mark
  deriving DecidableEq

/-- The rows that a drain has published and marked, and its error. -/
structure Drained where
  published : ℕ
  err : Option RelayError

/-- `FetchPending` : the rows are read, and the transaction is over before the rows are
used. -/
def fetchPending (limit : ℤ) : RelayProc A (Option (List OutboxRow)) := do
  match ← Repo.selectPending limit with
  | none => return none
  | some rows =>
    if ← Repo.commit then return some rows
    else return none

/-- The loop of a drain. `failure` is the error after a failed publish, given whether the
attempt could be counted. -/
def drainRows (publish : OutboxRow → RelayProc A Bool) (failure : Bool → RelayError) :
    List OutboxRow → ℕ → RelayProc A Drained
  | [], published => return ⟨published, none⟩
  | row :: rows, published => do
    if ← publish row then
      if ← Repo.markPublished row.id then
        drainRows publish failure rows (published + 1)
      else return ⟨published, some .mark⟩
    else
      let marked ← Repo.markFailed row.id
      return ⟨published, some (failure marked)⟩

def drain (publish : OutboxRow → RelayProc A Bool) (failure : Bool → RelayError) (limit : ℤ) :
    RelayProc A Drained := do
  match ← fetchPending limit with
  | none => return ⟨0, some .fetch⟩
  | some rows => drainRows publish failure rows 0

end

/-! ## The three relays -/

structure Relay where
  batchSize : ℤ

/-- The publisher as one request, `publish(topic, key, payload, traceparent)` of a row. -/
abbrev Request := RelayRequest OutboxRow

/-- `false` is an error of the publisher, too. -/
abbrev Request.Answer : Request → Type := RelayRequest.Answer fun _ => Bool

abbrev Proc := Prog Request.Answer

def publishRow (row : OutboxRow) : Proc Bool := request (RelayRequest.publish row)

/-- `NewRelay`. -/
def OrderService.newRelay (batch : ℤ) : Relay := ⟨if batch ≤ 0 then 100 else batch⟩

/-- The error of `MarkFailed` is logged only. -/
def OrderService.drainOnce (relay : Relay) : Proc Drained :=
  drain publishRow (fun _ => .publish) relay.batchSize

/-- `Relay.__init__`. -/
def PaymentService.newRelay (batchSize : ℤ) : Relay := ⟨batchSize⟩

/-- The exception of `mark_failed` replaces that of `publish`. -/
def PaymentService.drainOnce (relay : Relay) : Proc Drained :=
  drain publishRow (fun marked => if marked then .publish else .mark) relay.batchSize

/-- `Relay::Relay`. -/
def InventoryService.newRelay (batchSize : ℤ) : Relay :=
  ⟨if batchSize > 0 then batchSize else 100⟩

/-- The exception of `mark_failed` replaces that of `publish`, which may be any. -/
def InventoryService.drainOnceWith {P : Type} {A : P → Type}
    (publish : OutboxRow → RelayProc A Bool) (relay : Relay) : RelayProc A Drained :=
  drain publish (fun marked => if marked then .publish else .mark) relay.batchSize

def InventoryService.drainOnce (relay : Relay) : Proc Drained :=
  drainOnceWith publishRow relay

/-- The error of a service after a failed publish. -/
def Service.failure : Service → Bool → RelayError
  | .order => fun _ => .publish
  | .payment | .inventory => fun marked => if marked then .publish else .mark

/-- The drain of a service. -/
def Service.drainOnce (svc : Service) (relay : Relay) : Proc Drained :=
  match svc with
  | .order => OrderService.drainOnce relay
  | .payment => PaymentService.drainOnce relay
  | .inventory => InventoryService.drainOnce relay

theorem Service.drainOnce_eq (svc : Service) (relay : Relay) :
    svc.drainOnce relay = drain publishRow svc.failure relay.batchSize := by
  cases svc <;> rfl

/-! ## Where a drain can be -/

section

variable {P : Type} {A : P → Type} {publish : OutboxRow → RelayProc A Bool}
  {failure : Bool → RelayError}

/-- The exchanges of a loop that has published and marked the rows. -/
inductive Relayed (publish : OutboxRow → RelayProc A Bool) :
    List OutboxRow → Trace (RelayRequest.Answer A) → Prop
  | nil : Relayed publish [] []
  | cons {row : OutboxRow} {σ : Trace (RelayRequest.Answer A)} {rows : List OutboxRow}
      {τ : Trace (RelayRequest.Answer A)} (hpub : Reaches (publish row) σ (ret true))
      (h : Relayed publish rows τ) :
      Relayed publish (row :: rows) (σ ++ ⟨.markPublished row.id, true⟩ :: τ)

/-- What the loop does after the publish of the row. -/
def afterPublish (publish : OutboxRow → RelayProc A Bool) (failure : Bool → RelayError)
    (row : OutboxRow) (rows : List OutboxRow) (published : ℕ) (ok : Bool) :
    RelayProc A Drained :=
  if ok then
    call (.markPublished row.id) fun marked : Bool =>
      if marked then drainRows publish failure rows (published + 1)
      else ret ⟨published, some .mark⟩
  else call (.markFailed row.id) fun marked : Bool => ret ⟨published, some (failure marked)⟩

theorem drainRows_cons (row : OutboxRow) (rows : List OutboxRow) (published : ℕ) :
    drainRows publish failure (row :: rows) published =
      publish row >>= afterPublish publish failure row rows published := by
  rw [drainRows]
  rfl

/-- What a loop does with the row `row`, after the exchanges `σ` of this row, when it
is not done with it. -/
inductive Handling (publish : OutboxRow → RelayProc A Bool) (failure : Bool → RelayError)
    (row : OutboxRow) (rows : List OutboxRow) (published : ℕ) :
    Trace (RelayRequest.Answer A) → RelayProc A Drained → Prop
  | publishing {σ : Trace (RelayRequest.Answer A)} {q : RelayRequest P}
      {k : q.Answer A → RelayProc A Bool} (h : Reaches (publish row) σ (call q k)) :
      Handling publish failure row rows published σ
        (call q k >>= afterPublish publish failure row rows published)
  | published {σ : Trace (RelayRequest.Answer A)} {ok : Bool}
      (h : Reaches (publish row) σ (ret ok)) :
      Handling publish failure row rows published σ
        (afterPublish publish failure row rows published ok)
  | unmarked {σ : Trace (RelayRequest.Answer A)} (h : Reaches (publish row) σ (ret true)) :
      Handling publish failure row rows published (σ ++ [⟨.markPublished row.id, false⟩])
        (ret ⟨published, some .mark⟩)
  | unpublished {σ : Trace (RelayRequest.Answer A)} (marked : Bool)
      (h : Reaches (publish row) σ (ret false)) :
      Handling publish failure row rows published (σ ++ [⟨.markFailed row.id, marked⟩])
        (ret ⟨published, some (failure marked)⟩)

/-- A loop is at its head, or busy with a row, and has published and marked those
before. -/
theorem drainRows_reaches {rows : List OutboxRow} {published : ℕ}
    {τ : Trace (RelayRequest.Answer A)} {p : RelayProc A Drained}
    (h : Reaches (drainRows publish failure rows published) τ p) :
    ∃ done rest τ₁, rows = done ++ rest ∧ Relayed publish done τ₁ ∧
      ((τ = τ₁ ∧ p = drainRows publish failure rest (published + done.length)) ∨
        ∃ row rest' σ, rest = row :: rest' ∧ τ = τ₁ ++ σ ∧
          Handling publish failure row rest' (published + done.length) σ p) := by
  induction rows generalizing published τ with
  | nil =>
    obtain ⟨rfl, rfl⟩ := reaches_ret.mp h
    exact ⟨[], [], [], rfl, .nil, Or.inl ⟨rfl, rfl⟩⟩
  | cons row rows ih =>
    rw [drainRows_cons] at h
    obtain ⟨q, k, hpub, rfl⟩ | ⟨ok, σ, τ', rfl, hpub, hafter⟩ := reaches_bind h
    · exact ⟨[], row :: rows, [], rfl, .nil, Or.inr ⟨row, rows, τ, rfl, rfl, .publishing hpub⟩⟩
    cases ok with
    | false =>
      obtain ⟨rfl, rfl⟩ | ⟨marked, τ'', rfl, hrest⟩ := reaches_call.mp hafter
      · exact ⟨[], row :: rows, [], rfl, .nil,
          Or.inr ⟨row, rows, σ, rfl, by simp, .published hpub⟩⟩
      · obtain ⟨rfl, rfl⟩ := reaches_ret.mp hrest
        exact ⟨[], row :: rows, [], rfl, .nil,
          Or.inr ⟨row, rows, _, rfl, rfl, .unpublished marked hpub⟩⟩
    | true =>
      obtain ⟨rfl, rfl⟩ | ⟨marked, τ'', rfl, hrest⟩ := reaches_call.mp hafter
      · exact ⟨[], row :: rows, [], rfl, .nil,
          Or.inr ⟨row, rows, σ, rfl, by simp, .published hpub⟩⟩
      · cases marked with
        | false =>
          obtain ⟨rfl, rfl⟩ := reaches_ret.mp hrest
          exact ⟨[], row :: rows, [], rfl, .nil,
            Or.inr ⟨row, rows, _, rfl, rfl, .unmarked hpub⟩⟩
        | true =>
          -- the row is done, and the rest of the exchanges are those of the loop over `rows`
          obtain ⟨done, rest, τ₁, rfl, hdone, hcases⟩ := ih hrest
          refine ⟨row :: done, rest, _, rfl, .cons hpub hdone, ?_⟩
          have hlen : published + (row :: done).length = published + 1 + done.length := by
            rw [List.length_cons]
            omega
          rw [hlen]
          obtain ⟨rfl, rfl⟩ | ⟨row', rest', σ', rfl, rfl, hh⟩ := hcases
          · exact Or.inl ⟨rfl, rfl⟩
          · exact Or.inr ⟨row', rest', σ', rfl, by simp, hh⟩

/-- A drain has fetched nothing, or is in its loop over the batch that it has fetched. -/
theorem drain_reaches {limit : ℤ} {τ : Trace (RelayRequest.Answer A)} {p : RelayProc A Drained}
    (h : Reaches (drain publish failure limit) τ p) :
    (τ = [] ∧ p = drain publish failure limit) ∨
      (∃ rows : List OutboxRow, τ = [⟨.selectPending limit, some rows⟩] ∧
        p = call .commit fun ok : Bool =>
          if ok then drainRows publish failure rows 0 else ret ⟨0, some .fetch⟩) ∨
      ((τ = [⟨.selectPending limit, none⟩] ∨ ∃ rows : List OutboxRow,
          τ = [⟨.selectPending limit, some rows⟩, ⟨.commit, false⟩]) ∧
        p = ret ⟨0, some .fetch⟩) ∨
      ∃ (rows : List OutboxRow) (τ' : Trace (RelayRequest.Answer A)),
        τ = ⟨.selectPending limit, some rows⟩ :: ⟨.commit, true⟩ :: τ' ∧
        Reaches (drainRows publish failure rows 0) τ' p := by
  have hdrain : drain publish failure limit = call (.selectPending limit)
      fun found : Option (List OutboxRow) => match found with
        | none => ret ⟨0, some .fetch⟩
        | some rows => call .commit fun ok : Bool =>
            if ok then drainRows publish failure rows 0 else ret ⟨0, some .fetch⟩ := by
    change call (RelayRequest.selectPending limit) _ = call (RelayRequest.selectPending limit) _
    congr 1
    funext found
    cases found with
    | none => rfl
    | some rows =>
      change call RelayRequest.commit _ = call RelayRequest.commit _
      congr 1
      funext ok
      cases ok <;> rfl
  rw [hdrain] at h ⊢
  obtain ⟨rfl, rfl⟩ | ⟨found, τ', rfl, hfound⟩ := reaches_call.mp h
  · exact Or.inl ⟨rfl, rfl⟩
  cases found with
  | none =>
    obtain ⟨rfl, rfl⟩ := reaches_ret.mp hfound
    exact Or.inr (Or.inr (Or.inl ⟨Or.inl rfl, rfl⟩))
  | some rows =>
    obtain ⟨rfl, rfl⟩ | ⟨ok, τ'', rfl, hrows⟩ := reaches_call.mp hfound
    · exact Or.inr (Or.inl ⟨rows, rfl, rfl⟩)
    cases ok with
    | false =>
      obtain ⟨rfl, rfl⟩ := reaches_ret.mp hrows
      exact Or.inr (Or.inr (Or.inl ⟨Or.inr ⟨rows, rfl⟩, rfl⟩))
    | true => exact Or.inr (Or.inr (Or.inr ⟨rows, τ'', rfl, hrows⟩))

end

/-! ## A publisher that is one request -/

section

variable {failure : Bool → RelayError} {limit : ℤ}

/-- The exchanges of the fetch of a batch. -/
def fetched (limit : ℤ) (rows : List OutboxRow) : Trace Request.Answer :=
  [⟨.selectPending limit, some rows⟩, ⟨.commit, true⟩]

/-- The exchanges of rows that are published and marked. -/
def relayed (rows : List OutboxRow) : Trace Request.Answer :=
  rows.flatMap fun row => [⟨.publish row, true⟩, ⟨.markPublished row.id, true⟩]

/-- Where a drain is after its exchanges. -/
inductive At (failure : Bool → RelayError) (limit : ℤ) :
    Trace Request.Answer → Proc Drained → Prop
  | start : At failure limit [] (drain publishRow failure limit)
  | selected (rows : List OutboxRow) : At failure limit [⟨.selectPending limit, some rows⟩]
      (call .commit fun ok : Bool =>
        if ok then drainRows publishRow failure rows 0 else ret ⟨0, some .fetch⟩)
  | unfetched : At failure limit [⟨.selectPending limit, none⟩] (ret ⟨0, some .fetch⟩)
  | uncommitted (rows : List OutboxRow) : At failure limit
      [⟨.selectPending limit, some rows⟩, ⟨.commit, false⟩] (ret ⟨0, some .fetch⟩)
  | head (done rest : List OutboxRow) : At failure limit
      (fetched limit (done ++ rest) ++ relayed done)
      (drainRows publishRow failure rest done.length)
  | published (done : List OutboxRow) (row : OutboxRow) (rest : List OutboxRow) (ok : Bool) :
      At failure limit
        (fetched limit (done ++ row :: rest) ++ relayed done ++ [⟨.publish row, ok⟩])
        (afterPublish publishRow failure row rest done.length ok)
  | unmarked (done : List OutboxRow) (row : OutboxRow) (rest : List OutboxRow) :
      At failure limit (fetched limit (done ++ row :: rest) ++ relayed done ++
        [⟨.publish row, true⟩, ⟨.markPublished row.id, false⟩]) (ret ⟨done.length, some .mark⟩)
  | unpublished (done : List OutboxRow) (row : OutboxRow) (rest : List OutboxRow)
      (marked : Bool) :
      At failure limit (fetched limit (done ++ row :: rest) ++ relayed done ++
        [⟨.publish row, false⟩, ⟨.markFailed row.id, marked⟩])
        (ret ⟨done.length, some (failure marked)⟩)

theorem eq_of_reaches_publishRow {row : OutboxRow} {σ : Trace Request.Answer} {ok : Bool}
    (h : Reaches (publishRow row) σ (ret ok)) : σ = [⟨.publish row, ok⟩] := by
  obtain ⟨-, ⟨⟩⟩ | ⟨ok', σ', rfl, hret⟩ := reaches_call.mp h
  obtain ⟨rfl, hok⟩ := reaches_ret.mp hret
  rw [Prog.ret.inj hok]

theorem relayed_of_relayed {rows : List OutboxRow} {τ : Trace Request.Answer}
    (h : Relayed publishRow rows τ) : τ = relayed rows := by
  induction h with
  | nil => rfl
  | cons hpub _ ih =>
    rw [eq_of_reaches_publishRow hpub, ih]
    rfl

/-- Every drain is at one of these places. -/
theorem at_of_reaches {τ : Trace Request.Answer} {p : Proc Drained}
    (h : Reaches (drain publishRow failure limit) τ p) : At failure limit τ p := by
  obtain ⟨rfl, rfl⟩ | ⟨rows, rfl, rfl⟩ | ⟨rfl | ⟨rows, rfl⟩, rfl⟩ | ⟨rows, τ', rfl, hloop⟩ :=
    drain_reaches h
  · exact .start
  · exact .selected rows
  · exact .unfetched
  · exact .uncommitted rows
  obtain ⟨done, rest, τ₁, rfl, hdone, ⟨rfl, rfl⟩ | ⟨row, rest', σ, rfl, rfl, hh⟩⟩ :=
    drainRows_reaches hloop
  · rw [relayed_of_relayed hdone, Nat.zero_add]
    exact .head done rest
  rw [relayed_of_relayed hdone]
  rw [Nat.zero_add] at hh
  cases hh with
  | publishing hpub =>
    obtain ⟨rfl, hcall⟩ | ⟨ok, σ', rfl, hret⟩ := reaches_call.mp hpub
    · rw [hcall, List.append_nil]
      exact .head done (row :: rest')
    · exact nomatch (reaches_ret.mp hret).2
  | published hpub =>
    obtain rfl := eq_of_reaches_publishRow hpub
    exact .published done row rest' _
  | unmarked hpub =>
    obtain rfl := eq_of_reaches_publishRow hpub
    exact .unmarked done row rest'
  | unpublished marked hpub =>
    obtain rfl := eq_of_reaches_publishRow hpub
    exact .unpublished done row rest' marked

variable {τ : Trace Request.Answer} {p : Proc Drained}

/-- A fetch is the first request of a drain. -/
theorem At.selectPending (h : At failure limit τ p) {n : ℤ}
    (hp : p.next = some (.selectPending n)) : n = limit ∧ τ = [] := by
  cases h with
  | start => exact ⟨(RelayRequest.selectPending.inj (Option.some.inj hp)).symm, rfl⟩
  | head done rest => cases rest <;> exact nomatch hp
  | published done row rest ok => cases ok <;> exact nomatch hp
  | _ => exact nomatch hp

/-- The rows before the row that is published next are published and marked. -/
theorem At.publish (h : At failure limit τ p) {row : OutboxRow}
    (hp : p.next = some (.publish row)) :
    ∃ done rest, τ = fetched limit (done ++ row :: rest) ++ relayed done := by
  cases h with
  | head done rest =>
    cases rest with
    | nil => exact nomatch hp
    | cons row' rest =>
      obtain rfl : row' = row := RelayRequest.publish.inj (Option.some.inj hp)
      exact ⟨done, rest, rfl⟩
  | published done row rest ok => cases ok <;> exact nomatch hp
  | _ => exact nomatch hp

/-- A row that is marked next is published. -/
theorem At.markPublished (h : At failure limit τ p) {id : Uuid}
    (hp : p.next = some (.markPublished id)) :
    ∃ done row rest, id = row.id ∧
      τ = fetched limit (done ++ row :: rest) ++ relayed done ++ [⟨.publish row, true⟩] := by
  cases h with
  | head done rest => cases rest <;> exact nomatch hp
  | published done row rest ok =>
    cases ok with
    | false => exact nomatch hp
    | true =>
      exact ⟨done, row, rest, (RelayRequest.markPublished.inj (Option.some.inj hp)).symm, rfl⟩
  | _ => exact nomatch hp

/-- A drain that returns without an error has published and marked its batch. -/
theorem At.done (h : At failure limit τ p) {n : ℕ} (hp : p = ret ⟨n, none⟩) :
    ∃ rows, τ = fetched limit rows ++ relayed rows := by
  cases h with
  | head done rest =>
    cases rest with
    | nil => exact ⟨done, by rw [List.append_nil]⟩
    | cons row rest => exact nomatch congrArg Prog.next hp
  | published done row rest ok => cases ok <;> exact nomatch congrArg Prog.next hp
  | start => exact nomatch congrArg Prog.next hp
  | selected rows => exact nomatch hp
  | _ => exact nomatch (Drained.mk.inj (Prog.ret.inj hp)).2

theorem mem_relayed {rows : List OutboxRow} {row : OutboxRow} (h : row ∈ rows) :
    ⟨.publish row, true⟩ ∈ relayed rows ∧ ⟨.markPublished row.id, true⟩ ∈ relayed rows := by
  simp only [relayed, List.mem_flatMap]
  exact ⟨⟨row, h, by simp⟩, ⟨row, h, by simp⟩⟩

/-- A drain fetches once. -/
theorem eq_of_mem_fetched {n : ℤ} {rows rows' done : List OutboxRow}
    (h : ⟨.selectPending n, some rows⟩ ∈ fetched limit rows' ++ relayed done) : rows = rows' := by
  simp only [fetched, relayed, List.mem_append, List.mem_cons, List.mem_flatMap, Sigma.mk.injEq,
    RelayRequest.selectPending.injEq, reduceCtorEq, List.not_mem_nil, false_and, or_false,
    and_false, exists_false] at h
  exact Option.some.inj (eq_of_heq h.2)

/-- The rows that a drain has sent, in order. -/
def sends (τ : Trace Request.Answer) : List OutboxRow :=
  τ.filterMap fun e => match e.1 with
    | .publish row => some row
    | _ => none

theorem sends_relayed (rows : List OutboxRow) : sends (relayed rows) = rows := by
  induction rows with
  | nil => rfl
  | cons row rows ih => exact congrArg (row :: ·) ih

end

end Choreography
