import Choreography.RelayRuns

/-!
# The three relays against each other

The relays of the three services, as their configurations construct them, over the same
outbox and with the same outcomes of publishing. Marking succeeds. The loops are the same
then (`cycle_eq`), and what is left is what becomes of the batch size :

* Order reads a 64-bit integer, and Inventory a 32-bit one, or else takes 100; both take
  100 for a batch size that is not positive;
* Payment takes every integer as it is, and the database refuses a LIMIT that is negative
  or not a bigint.

So the relays agree exactly on the batch sizes from 1 to `2147483647` (`agree_iff`).
-/

namespace Choreography

open Prog

/-! ## Configuration -/

/-- `envInt` of Order, for the text of an integer : what `strconv.Atoi` rejects is replaced. -/
def OrderService.envInt (value fallback : ℤ) : ℤ :=
  if -2 ^ 63 ≤ value ∧ value < 2 ^ 63 then value else fallback

/-- `env_int` of Inventory, for the text of an integer : what `std::stoi` rejects is
replaced. -/
def InventoryService.envInt (value fallback : ℤ) : ℤ :=
  if -2 ^ 31 ≤ value ∧ value < 2 ^ 31 then value else fallback

/-- The relay of a service with the given `OUTBOX_RELAY_BATCH`. -/
def Service.configure (svc : Service) (batch : ℤ) : Relay :=
  match svc with
  | .order => OrderService.newRelay (OrderService.envInt batch 100)
  | .payment => PaymentService.newRelay batch
  | .inventory => InventoryService.newRelay (InventoryService.envInt batch 100)

/-! ## Drain cycles -/

/-- The order in which a database finds rows, by `created_at`. -/
structure Planner where
  order : List OutboxRow → List OutboxRow
  perm : ∀ rows, (order rows).Perm rows
  sorted : ∀ rows, (order rows).Pairwise fun a b => a.createdAt ≤ b.createdAt

/-- An outbox, and what was sent of it. -/
structure Backlog where
  outbox : Outbox
  sent : List Record

namespace Backlog

def pending (s : Backlog) : List OutboxRow :=
  s.outbox.rows.filter fun row => row.status = .pending

/-- The database, and a publisher with the given outcomes. -/
def answer (planner : Planner) (outcome : Uuid → Bool) :
    (q : Request) → Backlog → q.Answer × Backlog
  | .selectPending limit, s => (limitRows limit (planner.order s.pending), s)
  | .commit, s => (true, s)
  | .publish row, s => (outcome row.id, { s with sent := s.sent ++ [row.record] })
  | .markPublished id, s => (true, { s with outbox := markPublished s.outbox id })
  | .markFailed id, s => (true, { s with outbox := markFailed s.outbox id })

/-- One drain : whether it succeeds, and what it leaves. -/
def cycle (svc : Service) (relay : Relay) (planner : Planner) (outcome : Uuid → Bool)
    (s : Backlog) : Bool × Backlog :=
  let result := (svc.drainOnce relay).run (answer planner outcome) s
  (result.1.err = none, result.2)

/-- One drain after the other, each with its outcomes. -/
def cycles (svc : Service) (relay : Relay) (planner : Planner) :
    List (Uuid → Bool) → Backlog → List Bool × Backlog
  | [], s => ([], s)
  | outcome :: outcomes, s =>
    let first := cycle svc relay planner outcome s
    let rest := cycles svc relay planner outcomes first.2
    (first.1 :: rest.1, rest.2)

/-- What is compared : which cycles succeed, what is sent, and the status and the attempts of
every row. -/
def observe (result : List Bool × Backlog) :
    List Bool × List Record × List (Uuid × OutboxStatus × ℕ) :=
  (result.1, result.2.sent,
    result.2.outbox.rows.map fun row => (row.id, row.status, row.attempts))

/-- With this batch size in their configurations, the relays of all services do the same. -/
def Agree (batch : ℤ) : Prop :=
  ∀ (planner : Planner) (outbox : Outbox) (outcomes : List (Uuid → Bool)) (svc svc' : Service),
    observe (cycles svc (svc.configure batch) planner outcomes ⟨outbox, []⟩) =
      observe (cycles svc' (svc'.configure batch) planner outcomes ⟨outbox, []⟩)

/-! ## The same loop -/

variable {planner : Planner} {outcome : Uuid → Bool}

/-- The errors of a failed mark do not matter when marking succeeds. -/
theorem run_drainRows_congr {failure failure' : Bool → RelayError}
    (hf : failure true = failure' true) (rows : List OutboxRow) (published : ℕ) (s : Backlog) :
    (drainRows publishRow failure rows published).run (answer planner outcome) s =
      (drainRows publishRow failure' rows published).run (answer planner outcome) s := by
  induction rows generalizing published s with
  | nil => rfl
  | cons row rows ih =>
    rw [drainRows_cons, drainRows_cons, run_bind, run_bind]
    change run _ (afterPublish _ _ _ _ _ (outcome row.id)) _ =
      run _ (afterPublish _ _ _ _ _ (outcome row.id)) _
    cases outcome row.id with
    | true => exact ih (published + 1) _
    | false =>
      change (Drained.mk published (some (failure true)), _) =
        (Drained.mk published (some (failure' true)), _)
      rw [hf]

theorem run_fetchPending (limit : ℤ) (s : Backlog) :
    (fetchPending limit).run (answer planner outcome) s =
      (limitRows limit (planner.order s.pending), s) := by
  have hanswer : answer planner outcome (.selectPending limit) s =
      (limitRows limit (planner.order s.pending), s) := rfl
  rw [fetchPending, Repo.selectPending, request_bind, run, hanswer]
  dsimp only
  cases limitRows limit (planner.order s.pending) <;> rfl

/-- A drain is the loop over the rows that it fetches. -/
theorem run_drain (failure : Bool → RelayError) (limit : ℤ) (s : Backlog) :
    (drain publishRow failure limit).run (answer planner outcome) s =
      match limitRows limit (planner.order s.pending) with
      | none => (⟨0, some .fetch⟩, s)
      | some rows => (drainRows publishRow failure rows 0).run (answer planner outcome) s := by
  rw [drain, run_bind, run_fetchPending]
  cases limitRows limit (planner.order s.pending) <;> rfl

/-- Relays with the same batch size do the same, in all services. -/
theorem cycle_eq (svc svc' : Service) (relay : Relay) (s : Backlog) :
    cycle svc relay planner outcome s = cycle svc' relay planner outcome s := by
  have hrun : (svc.drainOnce relay).run (answer planner outcome) s =
      (svc'.drainOnce relay).run (answer planner outcome) s := by
    rw [Service.drainOnce_eq, Service.drainOnce_eq, run_drain, run_drain]
    cases limitRows relay.batchSize (planner.order s.pending) with
    | none => rfl
    | some rows =>
      refine run_drainRows_congr ?_ rows 0 s
      cases svc <;> cases svc' <;> rfl
  rw [cycle, cycle, hrun]

theorem cycles_eq (svc svc' : Service) (relay : Relay) (outcomes : List (Uuid → Bool))
    (s : Backlog) :
    cycles svc relay planner outcomes s = cycles svc' relay planner outcomes s := by
  induction outcomes generalizing s with
  | nil => rfl
  | cons outcome outcomes ih => rw [cycles, cycles, cycle_eq svc svc', ih]

/-! ## Batch sizes -/

/-- In the range of all three configurations, they take the batch size as it is. -/
theorem configure_of_range {batch : ℤ} (hpos : 1 ≤ batch) (hmax : batch ≤ 2147483647)
    (svc : Service) : svc.configure batch = ⟨batch⟩ := by
  cases svc with
  | order =>
    have hrange : -2 ^ 63 ≤ batch ∧ batch < 2 ^ 63 := ⟨by omega, by omega⟩
    rw [Service.configure, OrderService.envInt, if_pos hrange, OrderService.newRelay,
      if_neg (by omega)]
  | payment => rfl
  | inventory =>
    have hrange : -2 ^ 31 ≤ batch ∧ batch < 2 ^ 31 := ⟨by omega, by omega⟩
    rw [Service.configure, InventoryService.envInt, if_pos hrange, InventoryService.newRelay,
      if_pos (by omega)]

/-- Order takes 100 for a batch size that is not positive. -/
theorem configure_order_of_nonpos {batch : ℤ} (h : batch ≤ 0) :
    Service.order.configure batch = ⟨100⟩ := by
  rw [Service.configure, OrderService.envInt, OrderService.newRelay]
  split_ifs <;> rfl

/-- Inventory takes 100 for a batch size that is no 32-bit integer. -/
theorem configure_inventory_of_large {batch : ℤ} (h : 2147483647 < batch) :
    Service.inventory.configure batch = ⟨100⟩ := by
  rw [Service.configure, InventoryService.envInt, if_neg (by omega)]
  rfl

/-- Where every publish succeeds, the loop sends all of its rows. -/
theorem sent_run_drainRows (failure : Bool → RelayError) (rows : List OutboxRow)
    (published : ℕ) (s : Backlog) :
    ((drainRows publishRow failure rows published).run (answer planner fun _ => true) s).2.sent =
      s.sent ++ rows.map (·.record) := by
  induction rows generalizing published s with
  | nil => exact (List.append_nil _).symm
  | cons row rows ih =>
    rw [drainRows_cons, run_bind]
    refine (ih (published + 1) _).trans ?_
    exact List.append_assoc s.sent [row.record] (rows.map (·.record))

/-- How many rows a drain sends where every publish succeeds. -/
theorem length_sent_cycles (svc : Service) (relay : Relay) (outbox : Outbox) :
    (cycles svc relay planner [fun _ => true] ⟨outbox, []⟩).2.sent.length =
      if 0 ≤ relay.batchSize ∧ relay.batchSize < 2 ^ 63 then
        min relay.batchSize.toNat (Backlog.mk outbox []).pending.length
      else 0 := by
  have hcycles : (cycles svc relay planner [fun _ => true] ⟨outbox, []⟩).2 =
      ((svc.drainOnce relay).run (answer planner fun _ => true) ⟨outbox, []⟩).2 := rfl
  rw [hcycles, Service.drainOnce_eq, run_drain, limitRows]
  split_ifs with hrange
  · simp only [sent_run_drainRows, List.nil_append, List.length_map, List.length_take,
      (planner.perm _).length_eq]
  · rfl

theorem length_sent_default (svc : Service) (outbox : Outbox) :
    (cycles svc ⟨100⟩ planner [fun _ => true] ⟨outbox, []⟩).2.sent.length =
      min 100 (Backlog.mk outbox []).pending.length := by
  have hrange : (0 : ℤ) ≤ 100 ∧ (100 : ℤ) < 2 ^ 63 := by norm_num
  rw [length_sent_cycles, if_pos hrange]
  rfl

/-- A row of an outbox, with the given id. -/
def rowOf (id : Uuid) : OutboxRow :=
  OutboxInsert.row (.ofKey "" id)
    ⟨"order", "", "", .orderCreated, Envelope.new (.ofKey "" id) "" "" "" .null, ""⟩

/-- An outbox of `n` PENDING rows. -/
def ofLength (n : ℕ) (h : n ≤ 2 ^ 128) : Outbox where
  rows := (List.range n).map fun j => rowOf (BitVec.ofNat 128 j)
  nodup := by
    rw [List.map_map]
    refine List.Nodup.map_on (fun j hj j' hj' heq => ?_) List.nodup_range
    have hnat : j % 2 ^ 128 = j' % 2 ^ 128 := congrArg BitVec.toNat heq
    rw [List.mem_range] at hj hj'
    rwa [Nat.mod_eq_of_lt (by omega), Nat.mod_eq_of_lt (by omega)] at hnat

theorem length_pending_ofLength (n : ℕ) (h : n ≤ 2 ^ 128) :
    (Backlog.mk (ofLength n h) []).pending.length = n := by
  have hall : (Backlog.mk (ofLength n h) []).pending = (ofLength n h).rows := by
    refine List.filter_eq_self.mpr fun row hrow => ?_
    obtain ⟨j, -, rfl⟩ := List.mem_map.mp hrow
    rfl
  rw [hall, ofLength, List.length_map, List.length_range]

/-- The database sorts the rows. -/
def insertionPlanner : Planner where
  order := List.insertionSort fun a b => a.createdAt ≤ b.createdAt
  perm rows := List.perm_insertionSort _ rows
  sorted rows := by
    have htotal : Std.Total fun a b : OutboxRow => a.createdAt ≤ b.createdAt :=
      ⟨fun a b => le_total a.createdAt b.createdAt⟩
    have htrans : IsTrans OutboxRow fun a b => a.createdAt ≤ b.createdAt :=
      ⟨fun _ _ _ => le_trans⟩
    exact List.pairwise_insertionSort _ rows

/-- Services whose relays agree send equally many rows. -/
theorem Agree.length_sent {batch : ℤ} (h : Agree batch) (n : ℕ) (hn : n ≤ 2 ^ 128)
    (svc svc' : Service) :
    (cycles svc (svc.configure batch) insertionPlanner [fun _ => true]
        ⟨ofLength n hn, []⟩).2.sent.length =
      (cycles svc' (svc'.configure batch) insertionPlanner [fun _ => true]
        ⟨ofLength n hn, []⟩).2.sent.length :=
  congrArg (fun seen => seen.2.1.length) (h insertionPlanner (ofLength n hn) _ svc svc')

/-- Payment sends nothing for a batch size that is not positive. -/
theorem not_agree_of_nonpos {batch : ℤ} (hbatch : batch ≤ 0) : ¬Agree batch := by
  intro h
  have hlen := h.length_sent 1 (by norm_num) .order .payment
  have hpayment : Service.payment.configure batch = ⟨batch⟩ := rfl
  rw [configure_order_of_nonpos hbatch, length_sent_default, length_sent_cycles, hpayment,
    length_pending_ofLength] at hlen
  dsimp only at hlen
  have hzero : batch.toNat = 0 := Int.toNat_of_nonpos hbatch
  split_ifs at hlen <;> omega

/-- Inventory sends 100 rows of 101 for a batch size that is no 32-bit integer. -/
theorem not_agree_of_large {batch : ℤ} (hbatch : 2147483647 < batch) : ¬Agree batch := by
  intro h
  have hlen := h.length_sent 101 (by norm_num) .inventory .payment
  have hpayment : Service.payment.configure batch = ⟨batch⟩ := rfl
  rw [configure_inventory_of_large hbatch, length_sent_default, length_sent_cycles, hpayment,
    length_pending_ofLength] at hlen
  dsimp only at hlen
  split_ifs at hlen <;> omega

/-- The relays agree exactly on these batch sizes. -/
theorem agree_iff (batch : ℤ) : Agree batch ↔ 1 ≤ batch ∧ batch ≤ 2147483647 := by
  constructor
  · intro h
    refine ⟨?_, ?_⟩
    · by_contra hpos
      exact not_agree_of_nonpos (by omega) h
    · by_contra hmax
      exact not_agree_of_large (by omega) h
  · rintro ⟨hpos, hmax⟩ planner outbox outcomes svc svc'
    rw [configure_of_range hpos hmax, configure_of_range hpos hmax, cycles_eq svc svc']

/-- With a batch size of 0, Order and Inventory send, and Payment does not. -/
theorem not_agree_zero : ¬Agree 0 := not_agree_of_nonpos (by norm_num)

end Backlog

end Choreography
