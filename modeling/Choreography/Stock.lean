import Choreography.Inventory
import Choreography.Runs

/-!
# Stock and reservations

The two tables that `reserve` and `release` keep in step. `reservedSum` is what the
RESERVED rows hold of a SKU. Whatever the sagas and keys, a transaction moves units
between `available` and `reserved` of one stock row, and the RESERVED rows never hold
more than is reserved, as long as quantities are not negative (`Sound`,
`Sound.reserve`, `Sound.release`).

Two properties need more :

* the accounting, where `reserved` is exactly what the RESERVED rows hold, is lost when
  stock is taken for a saga that has a reservation row, and only then
  (`accounted_throughout_iff`);
* the bounds on the stock are lost when a granted or returned quantity takes one of the counts
  below zero, or a reservation is granted without a stock row, and only then
  (`bounded_throughout_iff`). Quantities that are not negative, with a stock row where they are
  zero, cannot do that, but nothing on the way from the RPC checks them.
-/

namespace Choreography.InventoryService

/-! ## What the rows hold -/

/-- The units that the RESERVED rows hold of a SKU. -/
def reservedSum (reservations : Table Reservation Reservation.sagaId) (sku : String) : ℤ :=
  reservations.sum fun r => if r.sku = sku ∧ r.status = .reserved then r.quantity.val else 0

theorem reservedSum_insert {reservations reservations' : Table Reservation Reservation.sagaId}
    {r : Reservation} (h : reservations.insert r = some reservations') (hst : r.status = .reserved)
    (sku : String) : reservedSum reservations' sku =
      reservedSum reservations sku + if sku = r.sku then r.quantity.val else 0 := by
  unfold reservedSum
  rw [Table.sum_of_insert h]
  simp [hst, eq_comm]

theorem reservedSum_setReleased {reservations : Table Reservation Reservation.sagaId} {u : Uuid}
    {r : Reservation} (h : reservations.find? u = some r) (hst : r.status = .reserved)
    (sku : String) : reservedSum (setReleased reservations u) sku =
      reservedSum reservations sku - if sku = r.sku then r.quantity.val else 0 := by
  unfold reservedSum setReleased
  rw [Table.sum_update h]
  simp [hst, eq_comm]

theorem mem_setReleased {reservations : Table Reservation Reservation.sagaId} {u : Uuid}
    {r : Reservation} (h : r ∈ (setReleased reservations u).rows) :
    ∃ r' ∈ reservations.rows, r'.sku = r.sku ∧ r'.quantity = r.quantity := by
  rcases Table.mem_update.mp h with ⟨r', hr', -, rfl⟩ | ⟨hr, -⟩
  · exact ⟨r', hr', rfl, rfl⟩
  · exact ⟨r, hr, rfl, rfl⟩

/-! ## What every transaction keeps -/

/-- The tables after some transactions on a stock that began as `stock₀`. -/
structure Sound (stock₀ : Stock) (db : Db) : Prop where
  total : ∀ sku, available db.stock sku + reserved db.stock sku =
    available stock₀ sku + reserved stock₀ sku
  lower : ∀ sku, min 0 (available stock₀ sku) ≤ available db.stock sku
  backed : ∀ r ∈ db.reservations.rows, (db.stock.find? r.sku).isSome
  nonneg : ∀ r ∈ db.reservations.rows, 0 ≤ r.quantity.val
  held : ∀ sku, reservedSum db.reservations sku ≤ reserved db.stock sku

namespace Sound

variable {stock₀ : Stock} {db db' : Db}

theorem init (hres : db.reservations = Table.empty) (h : ∀ sku, 0 ≤ reserved db.stock sku) :
    Sound db.stock db where
  total _ := rfl
  lower _ := min_le_right _ _
  backed := by simp [hres]
  nonneg := by simp [hres]
  held sku := by
    rw [hres]
    exact h sku

theorem congr (h : Sound stock₀ db) (hstock : db'.stock = db.stock)
    (hres : db'.reservations = db.reservations) : Sound stock₀ db' := by
  obtain ⟨h1, h2, h3, h4, h5⟩ := h
  rw [← hstock] at h1 h2 h3 h5
  rw [← hres] at h3 h4 h5
  exact ⟨h1, h2, h3, h4, h5⟩

theorem le_reservedSum (h : Sound stock₀ db) {u : Uuid} {r : Reservation}
    (hr : db.reservations.find? u = some r) (hst : r.status = .reserved) :
    r.quantity.val ≤ reservedSum db.reservations r.sku := by
  have hmem := (Table.find?_eq_some.mp hr).1
  have hle := List.single_le_sum (l := db.reservations.rows.map fun r' =>
    if r'.sku = r.sku ∧ r'.status = .reserved then r'.quantity.val else 0) ?_ _
    (List.mem_map_of_mem hmem)
  · simp only [hst, and_self, if_true] at hle
    exact hle
  · intro x hx
    obtain ⟨r', hr', rfl⟩ := List.mem_map.mp hx
    have := h.nonneg r' hr'
    split_ifs <;> omega

theorem reservedSum_nonneg (h : Sound stock₀ db) (sku : String) :
    0 ≤ reservedSum db.reservations sku := by
  refine List.sum_nonneg fun x hx => ?_
  obtain ⟨r, hr, rfl⟩ := List.mem_map.mp hx
  have := h.nonneg r hr
  split_ifs <;> omega

/-- Stock is taken from a row : a positive quantity is not available without one. -/
theorem isSome_of_takes {newId : Uuid} {stamp : Stamp} {u : Uuid} {idem sku : String}
    {quantity : Int4} {ob : OutboxInsert} (ht : Takes db newId stamp u idem sku quantity ob db')
    (hq : 0 < quantity.val ∨ quantity.val = 0 ∧ (db.stock.find? sku).isSome) :
    (db.stock.find? sku).isSome := by
  rcases hq with hq | ⟨-, hrow⟩
  · have := ht.enough
    unfold available at this
    cases hrow : db.stock.find? sku with
    | none => simp only [hrow] at this; omega
    | some row => rfl
  · exact hrow

theorem takes (h : Sound stock₀ db) {newId : Uuid} {stamp : Stamp} {u : Uuid}
    {idem sku : String} {quantity : Int4} {ob : OutboxInsert}
    (ht : Takes db newId stamp u idem sku quantity ob db')
    (hq : 0 < quantity.val ∨ quantity.val = 0 ∧ (db.stock.find? sku).isSome) :
    Sound stock₀ db' := by
  have hrow := isSome_of_takes ht hq
  have hmoved := moved_of_moveStock ht.stock
  have henough := ht.enough
  have hquantity : 0 ≤ quantity.val := by omega
  have hrows : ∀ r ∈ db'.reservations.rows, r ∈ db.reservations.rows ∨
      r.sku = sku ∧ r.quantity = quantity := by
    intro r hr
    rw [ht.reservations] at hr
    rcases mem_upsertReservation hr with hr | rfl
    · exact Or.inl hr
    · exact Or.inr ⟨rfl, rfl⟩
  refine ⟨fun sku' => ?_, fun sku' => ?_, fun r hr => ?_, fun r hr => ?_, fun sku' => ?_⟩
  · rw [hmoved.available, hmoved.reserved, ← h.total sku']
    omega
  · have hlow := h.lower sku'
    rw [hmoved.available]
    split_ifs with hs
    · rw [hs.1] at hlow ⊢
      omega
    · omega
  · rw [hmoved.rows]
    rcases hrows r hr with hr | ⟨hsku, -⟩
    · exact h.backed r hr
    · rwa [hsku]
  · rcases hrows r hr with hr | ⟨-, hqty⟩
    · exact h.nonneg r hr
    · rwa [hqty]
  · have hheld := h.held sku'
    rw [ht.reservations, hmoved.reserved]
    rcases upsertReservation_cases db.reservations ⟨newId, u, sku, quantity, .reserved⟩ with
      ⟨-, hup⟩ | ⟨-, hup⟩
    · rw [hup]
      split_ifs <;> omega
    · rw [reservedSum_insert hup rfl]
      by_cases hs : sku' = sku
      · simp only [hs, hrow, and_self, if_true] at hheld ⊢
        omega
      · simpa [hs] using hheld

theorem releases (h : Sound stock₀ db) {stamp : Stamp} {u : Uuid} {r : Reservation}
    {idem consumer : String} {ob : OutboxInsert}
    (hr : Releases db stamp u r idem consumer ob db') : Sound stock₀ db' := by
  have hmem := (Table.find?_eq_some.mp hr.row).1
  have hrow := h.backed r hmem
  have hq := h.nonneg r hmem
  have hmoved := moved_of_moveStock hr.stock
  refine ⟨fun sku => ?_, fun sku => ?_, fun r' hr' => ?_, fun r' hr' => ?_, fun sku => ?_⟩
  · rw [hmoved.available, hmoved.reserved, ← h.total sku]
    omega
  · have hlow := h.lower sku
    rw [hmoved.available]
    split_ifs <;> omega
  · rw [hr.reservations] at hr'
    obtain ⟨r'', hr'', hsku, -⟩ := mem_setReleased hr'
    rw [hmoved.rows, ← hsku]
    exact h.backed r'' hr''
  · rw [hr.reservations] at hr'
    obtain ⟨r'', hr'', -, hqty⟩ := mem_setReleased hr'
    rw [← hqty]
    exact h.nonneg r'' hr''
  · have hheld := h.held sku
    rw [hr.reservations, hmoved.reserved, reservedSum_setReleased hr.row hr.status]
    by_cases hs : sku = r.sku
    · simp only [hs, hrow, and_self, if_true] at hheld ⊢
      omega
    · simpa [hs] using hheld

/-- A positive quantity that is available can be taken without overflow. -/
theorem exists_moveStock_take (h : Sound stock₀ db) (h₀ : ∀ sku, reserved stock₀ sku = 0)
    {sku : String} {quantity : Int4} (hq : 0 < quantity.val)
    (henough : quantity.val ≤ available db.stock sku) :
    ∃ stock, moveStock db.stock sku quantity.val = .ok stock := by
  have htotal := h.total sku
  have hheld := h.held sku
  have hsum := h.reservedSum_nonneg sku
  have hmax := available_le stock₀ sku
  rw [h₀ sku] at htotal
  exact exists_moveStock (by omega) (by omega)

/-- What a RESERVED row holds can be given back without overflow. -/
theorem exists_moveStock_return (h : Sound stock₀ db) (h₀ : ∀ sku, reserved stock₀ sku = 0)
    {u : Uuid} {r : Reservation} (hr : db.reservations.find? u = some r)
    (hst : r.status = .reserved) :
    ∃ stock, moveStock db.stock r.sku (-r.quantity.val) = .ok stock := by
  have htotal := h.total r.sku
  have hheld := h.held r.sku
  have hsum := h.le_reservedSum hr hst
  have hq := h.nonneg r (Table.find?_eq_some.mp hr).1
  have hmax := available_le stock₀ r.sku
  have hlow := h.lower r.sku
  have hmin := le_available stock₀ r.sku
  rw [h₀ r.sku] at htotal
  exact exists_moveStock (by omega) (by omega)

end Sound

/-- The tables after a transaction; one that fails is rolled back. -/
def committed {ε α : Type} (db : Db) (result : Except ε (α × Db)) : Db :=
  match result with
  | .ok (_, db') => db'
  | .error _ => db

theorem committed_of {ε α : Type} {db : Db} {result : Except ε (α × Db)} {P : Db → Prop}
    (hdb : P db) (h : ∀ a db', result = .ok (a, db') → P db') : P (committed db result) := by
  unfold committed
  split
  · next a db' => exact h a db' rfl
  · exact hdb

/-! ## The accounting of the repository -/

/-- A call of the repository, with a positive quantity. -/
inductive Call
  | reserve (newId : Uuid) (stamp : Stamp) (sagaId idempotencyKey sku : String) (quantity : Int4)
      (positive : 0 < quantity.val) (buildEvent : ReserveOutcome → OutboxInsert)
  | release (stamp : Stamp) (sagaId reservationId idempotencyKey consumer : String)
      (buildEvent : ReleaseOutcome → OutboxInsert)

/-- The tables after a call. -/
def Call.exec (db : Db) : Call → Db
  | .reserve newId stamp sagaId idem sku quantity _ build =>
    committed db (InventoryService.reserve db newId stamp sagaId idem sku quantity build)
  | .release stamp sagaId reservationId idem consumer build =>
    committed db (InventoryService.release db stamp sagaId reservationId idem consumer build)

/-- The stock reserved of every SKU is what the RESERVED rows hold of it. -/
def Accounted (db : Db) : Prop := ∀ sku, reserved db.stock sku = reservedSum db.reservations sku

/-- The call takes stock for a saga that already has a reservation row : its key is
new, the stock suffices, and its event is stored. -/
def Call.Retakes (db : Db) : Call → Prop
  | .reserve _ stamp sagaId idem sku quantity _ build =>
    (cString idem, consumerReserve) ∉ db.processed ∧ isPoisonSku sku = false ∧
      quantity.val ≤ available db.stock (cString sku) ∧ db.outbox.find? stamp.rowId = none ∧
      ∃ r ∈ (uuidIn (cString sagaId)).bind db.reservations.find?,
        (build ⟨.reserved, uuidOut r.id, false⟩).payload.holdsNul = false
  | .release .. => False

instance (db : Db) : (c : Call) → Decidable (c.Retakes db)
  | .reserve .. => inferInstanceAs (Decidable (_ ∧ _))
  | .release .. => inferInstanceAs (Decidable False)

theorem sound_exec {stock₀ : Stock} (db : Db) (c : Call) (h : Sound stock₀ db) :
    Sound stock₀ (c.exec db) := by
  cases c with
  | reserve newId stamp sagaId idem sku quantity hq build =>
    refine committed_of h fun outcome db' hok => ?_
    rcases reserve_cases hok with ⟨rfl, -, -⟩ | ⟨-, ⟨-, -, href⟩ | ⟨-, -, -, u, -, -, ht⟩⟩
    · exact h
    · exact h.congr href.stock href.reservations
    · exact h.takes ht (Or.inl hq)
  | release stamp sagaId reservationId idem consumer build =>
    refine committed_of h fun outcome db' hok => ?_
    rcases release_cases hok with ⟨-, rfl, -⟩ | ⟨-, -, -, rfl⟩ | ⟨-, -, u, r, -, hr⟩
    · exact h
    · exact h.congr rfl rfl
    · exact h.releases hr

/-- Taking stock for a saga keeps the accounting exactly if the saga has no row. -/
theorem accounted_takes_iff {db db' : Db} {newId : Uuid} {stamp : Stamp} {u : Uuid}
    {idem sku : String} {quantity : Int4} {ob : OutboxInsert} (hacc : Accounted db)
    (ht : Takes db newId stamp u idem sku quantity ob db') (hq : 0 < quantity.val) :
    Accounted db' ↔ db.reservations.find? u = none := by
  have hrow := Sound.isSome_of_takes ht (Or.inl hq)
  have hmoved := moved_of_moveStock ht.stock
  unfold Accounted at hacc ⊢
  simp only [hmoved.reserved, ht.reservations]
  rcases upsertReservation_cases db.reservations ⟨newId, u, sku, quantity, .reserved⟩ with
    ⟨hsome, hup⟩ | ⟨hnone, hup⟩
  · rw [hup]
    refine ⟨fun h => ?_, fun h => ?_⟩
    · have hsku := h sku
      rw [if_pos ⟨rfl, hrow⟩, hacc sku] at hsku
      omega
    · simp [show db.reservations.find? u = none from h] at hsome
  · refine ⟨fun _ => hnone, fun _ sku' => ?_⟩
    rw [reservedSum_insert hup rfl, hacc sku']
    simp [hrow]

theorem accounted_releases {stock₀ : Stock} {db db' : Db} {stamp : Stamp} {u : Uuid}
    {r : Reservation} {idem consumer : String} {ob : OutboxInsert} (h : Sound stock₀ db)
    (hacc : Accounted db) (hr : Releases db stamp u r idem consumer ob db') : Accounted db' := by
  intro sku
  have hrow := h.backed r (Table.find?_eq_some.mp hr.row).1
  rw [(moved_of_moveStock hr.stock).reserved, hr.reservations,
    reservedSum_setReleased hr.row hr.status, hacc sku]
  by_cases hs : sku = r.sku
  · simp [hs, hrow, sub_eq_add_neg]
  · simp [hs]

/-- The id that the upsert returns for a saga that has a row is that of the row. -/
theorem upsertReservation_fst {reservations : Table Reservation Reservation.sagaId}
    {r r' : Reservation} (h : reservations.find? r.sagaId = some r') :
    (upsertReservation reservations r).1 = r'.id := by
  have hid := id_upsertReservation reservations r
  rw [find?_upsertReservation_of_some h, Option.map_some, Option.some.injEq] at hid
  exact hid.symm

/-- A call that takes stock without retaking is the first of its saga. -/
theorem find?_eq_none_of_not_retakes {db db' : Db} {newId : Uuid} {stamp : Stamp}
    {sagaId idem sku : String} {quantity : Int4} {hq : 0 < quantity.val}
    {build : ReserveOutcome → OutboxInsert} {outcome : ReserveOutcome}
    (hok : reserve db newId stamp sagaId idem sku quantity build = .ok (outcome, db'))
    (hst : outcome.status = .reserved) (hdup : outcome.duplicate = false)
    (hret : ¬(Call.reserve newId stamp sagaId idem sku quantity hq build).Retakes db) :
    ∃ u, uuidIn (cString sagaId) = some u ∧ db.reservations.find? u = none ∧
      Takes db newId stamp u (cString idem) (cString sku) quantity
        (build outcome).cStrings db' := by
  obtain ⟨-, hdup', -⟩ | ⟨htext, ⟨rfl, -⟩ | ⟨-, -, hclean, u, hu, hid, ht⟩⟩ := reserve_cases hok
  · simp [hdup] at hdup'
  · simp at hst
  · refine ⟨u, hu, ?_, ht⟩
    cases hrow : db.reservations.find? u with
    | none => rfl
    | some r =>
      rw [upsertReservation_fst (r := ⟨newId, u, cString sku, quantity, .reserved⟩) hrow] at hid
      obtain ⟨status, reservationId, duplicate⟩ := outcome
      subst hst hdup hid
      exact absurd ⟨ht.fresh, hclean, ht.enough, (insertOutbox_eq_ok.mp ht.outbox).1, r,
        Option.bind_eq_some_iff.mpr ⟨u, hu, hrow⟩, htext⟩ hret

/-- A call keeps the accounting exactly if it does not take stock for a saga that has a
row. -/
theorem accounted_exec_iff {stock₀ : Stock} (h₀ : ∀ sku, reserved stock₀ sku = 0) (db : Db)
    (c : Call) (h : Sound stock₀ db) (hacc : Accounted db) :
    Accounted (c.exec db) ↔ ¬c.Retakes db := by
  cases c with
  | reserve newId stamp sagaId idem sku quantity hq build =>
    constructor
    · rintro hacc' ⟨hfresh, hclean, henough, hfree, r, hr, htext⟩
      obtain ⟨u, hu, hrow⟩ := Option.bind_eq_some_iff.mp hr
      obtain ⟨stock, hmove⟩ := h.exists_moveStock_take h₀ hq henough
      rw [← upsertReservation_fst (r := ⟨newId, u, cString sku, quantity, .reserved⟩) hrow] at htext
      obtain ⟨outcome, db', hok, ht⟩ :=
        reserve_takes newId hfresh hclean henough hmove hu hfree htext
      simp only [Call.exec, hok, committed] at hacc'
      rw [(accounted_takes_iff hacc ht hq).mp hacc'] at hrow
      cases hrow
    · intro hret
      refine committed_of hacc fun outcome db' hok => ?_
      rcases reserve_cases hok with ⟨rfl, -, -⟩ | ⟨-, ⟨-, -, href⟩ | ⟨hst, hdup, -⟩⟩
      · exact hacc
      · simpa [Accounted, href.stock, href.reservations] using hacc
      · obtain ⟨u, -, hnone, ht⟩ := find?_eq_none_of_not_retakes hok hst hdup hret
        exact (accounted_takes_iff hacc ht hq).mpr hnone
  | release stamp sagaId reservationId idem consumer build =>
    refine ⟨fun _ => id, fun _ => committed_of hacc fun outcome db' hok => ?_⟩
    rcases release_cases hok with ⟨-, rfl, -⟩ | ⟨-, -, -, rfl⟩ | ⟨-, -, u, r, -, hr⟩
    · exact hacc
    · exact hacc
    · exact accounted_releases h hacc hr

/-- A release of the saga `u` under a new key, with an event that is stored, returns `quantity`
units of `sku`. -/
def Returns (db : Db) (u : Uuid) (sku : String) (quantity : Int4) : Prop :=
  ∀ stamp sagaId reservationId idem consumer build, uuidIn (cString sagaId) = some u →
    (cString idem, cString consumer) ∉ db.processed → db.outbox.find? stamp.rowId = none →
    (build ⟨true, false⟩).payload.holdsNul = false →
    ∃ db', release db stamp sagaId reservationId idem consumer build = .ok (⟨true, false⟩, db') ∧
      available db'.stock sku = available db.stock sku + quantity.val

/-- What the call takes, if it reports RESERVED and is no duplicate, stands on the row
of its saga and can be returned from there until it has been. -/
def Call.Returnable (db : Db) (later : List Call) : Call → Prop
  | .reserve newId stamp sagaId idem sku quantity _ build =>
    ∀ outcome db', InventoryService.reserve db newId stamp sagaId idem sku quantity build =
        .ok (outcome, db') → outcome.status = .reserved → outcome.duplicate = false →
      ∃ u, uuidIn (cString sagaId) = some u ∧
        db'.reservations.find? u = some ⟨newId, u, cString sku, quantity, .reserved⟩ ∧
        Throughout Call.exec (fun s =>
          s.reservations.find? u = some ⟨newId, u, cString sku, quantity, .reserved⟩ ∧
              Returns s u (cString sku) quantity ∨
            s.reservations.find? u = some ⟨newId, u, cString sku, quantity, .released⟩) db' later
  | .release .. => True

/-- The row of the saga `u` is the one that `newId` was drawn for. -/
def HasRow (u newId : Uuid) (sku : String) (quantity : Int4) (db : Db) : Prop :=
  ∃ st, db.reservations.find? u = some ⟨newId, u, sku, quantity, st⟩

/-- A saga keeps its row. -/
theorem hasRow_exec {u newId : Uuid} {sku : String} {quantity : Int4} (db : Db) (c : Call)
    (h : HasRow u newId sku quantity db) : HasRow u newId sku quantity (c.exec db) := by
  obtain ⟨st, hrow⟩ := h
  cases c with
  | reserve newId' stamp sagaId idem sku' quantity' hq build =>
    refine committed_of (P := HasRow u newId sku quantity) ⟨st, hrow⟩ fun outcome db' hok => ?_
    rcases reserve_cases hok with ⟨rfl, -, -⟩ | ⟨-, ⟨-, -, href⟩ | ⟨-, -, -, u', -, -, ht⟩⟩
    · exact ⟨st, hrow⟩
    · exact ⟨st, by rw [href.reservations, hrow]⟩
    · exact ⟨st, by rw [ht.reservations, find?_upsertReservation_of_some hrow]⟩
  | release stamp sagaId reservationId idem consumer build =>
    refine committed_of (P := HasRow u newId sku quantity) ⟨st, hrow⟩ fun outcome db' hok => ?_
    rcases release_cases hok with ⟨-, rfl, -⟩ | ⟨-, -, -, rfl⟩ | ⟨-, -, u', r, -, hr⟩
    · exact ⟨st, hrow⟩
    · exact ⟨st, hrow⟩
    · unfold HasRow
      rw [hr.reservations, setReleased, Table.find?_update]
      split_ifs with hu
      · exact ⟨.released, by rw [← hu, hrow]; rfl⟩
      · exact ⟨st, hrow⟩

/-- A RESERVED row can be released. -/
theorem returns_of_reserved {stock₀ : Stock} {db : Db} {u newId : Uuid} {sku : String}
    {quantity : Int4} (h₀ : ∀ sku, reserved stock₀ sku = 0) (h : Sound stock₀ db)
    (hrow : db.reservations.find? u = some ⟨newId, u, sku, quantity, .reserved⟩) :
    Returns db u sku quantity := by
  intro stamp sagaId reservationId idem consumer build hu hfresh hfree htext
  obtain ⟨stock, hmove⟩ := h.exists_moveStock_return h₀ hrow rfl
  dsimp only at hmove
  obtain ⟨outbox, hb⟩ := Db.exists_insertOutbox hfree htext
  have hbacked := h.backed _ (Table.find?_eq_some.mp hrow).1
  refine ⟨⟨stock, setReleased db.reservations u, (cString idem, cString consumer) :: db.processed,
    outbox⟩, ?_, ?_⟩
  · simp [release, Db.markProcessed_eq_some.mpr ⟨hfresh, rfl⟩, hu, hrow, hmove, hb]
  · rw [(moved_of_moveStock hmove).available, if_pos ⟨rfl, hbacked⟩]
    omega

theorem returnable_of_not_retakes {stock₀ : Stock} {db : Db} (h₀ : ∀ sku, reserved stock₀ sku = 0)
    (h : Sound stock₀ db) (c : Call) (hret : ¬c.Retakes db) (later : List Call) :
    c.Returnable db later := by
  cases c with
  | release stamp sagaId reservationId idem consumer build => trivial
  | reserve newId stamp sagaId idem sku quantity hq build =>
    intro outcome db' hok hst hdup
    obtain ⟨u, hu, hnone, ht⟩ := find?_eq_none_of_not_retakes hok hst hdup hret
    have hrow : db'.reservations.find? u = some ⟨newId, u, cString sku, quantity, .reserved⟩ := by
      rw [ht.reservations, find?_upsertReservation hnone]
      exact if_pos rfl
    refine ⟨u, hu, hrow, fun pre _ => ?_⟩
    have hsound : Sound stock₀ (runFrom Call.exec db' pre) :=
      invariant_runFrom sound_exec pre (h.takes ht (Or.inl hq))
    have hkept : HasRow u newId (cString sku) quantity (runFrom Call.exec db' pre) :=
      invariant_runFrom hasRow_exec pre ⟨.reserved, hrow⟩
    obtain ⟨st, hfind⟩ := hkept
    cases st with
    | reserved => exact Or.inl ⟨hfind, returns_of_reserved h₀ hsound hfind⟩
    | released => exact Or.inr hfind

theorem reserved_eq_zero {stock : Stock} (h : ∀ row ∈ stock.rows, row.reserved.val = 0)
    (sku : String) : reserved stock sku = 0 := by
  unfold reserved
  split
  · rfl
  · next row hrow => exact h row (Table.find?_eq_some.mp hrow).1

/-- The stock of a new deployment, in terms of its SKUs. -/
theorem initial_stock {stock : Stock}
    (h : ∀ row ∈ stock.rows, row.reserved.val = 0 ∧ 0 ≤ row.available.val) :
    (∀ sku, reserved stock sku = 0) ∧ ∀ sku, 0 ≤ available stock sku := by
  refine ⟨reserved_eq_zero fun row hrow => (h row hrow).1, fun sku => ?_⟩
  unfold available
  split
  · exact le_refl 0
  · next row hrow => exact (h row (Table.find?_eq_some.mp hrow).1).2

/-- Calls of the repository on a stock where nothing is reserved keep the accounting as
long as no call takes stock for a saga that has a reservation row, and no longer. Until
then, what a call took can be returned. -/
theorem accounted_throughout_iff (db : Db) (hstock : ∀ row ∈ db.stock.rows, row.reserved.val = 0)
    (hres : db.reservations = Table.empty) (calls : List Call) :
    (Throughout Call.exec Accounted db calls ↔
        Along Call.exec (fun db c => ¬c.Retakes db) db calls) ∧
      (Along Call.exec (fun db c => ¬c.Retakes db) db calls →
        ∀ pre c later, calls = pre ++ c :: later →
          c.Returnable (runFrom Call.exec db pre) later) := by
  have h₀ := reserved_eq_zero hstock
  have hsound : Sound db.stock db := Sound.init hres fun sku => (h₀ sku).ge
  have hacc : Accounted db := fun sku => by rw [h₀ sku, hres]; rfl
  refine ⟨throughout_iff_along sound_exec (accounted_exec_iff h₀) hsound hacc, ?_⟩
  rintro h pre c later rfl
  exact returnable_of_not_retakes h₀ (invariant_runFrom sound_exec pre hsound) c
    (along_append.mp h).2.1 later

/-- Ten units of one SKU. -/
def tenUnits : Stock := ⟨[⟨"SKU-1", .lit 10, .lit 0⟩], by decide⟩

/-- A reservation of `quantity` units for a saga. -/
def reserveCall (n : ℕ) (sagaId key : String) (quantity : Int4) (positive : 0 < quantity.val)
    (h : hasNul key = false := by exact Eq.refl false) : Call :=
  .reserve n (Stamp.ofKey key n h) sagaId key "SKU-1" quantity positive
    (reserveEvent (Stamp.ofKey key n h) sagaId "SKU-1" quantity "")

/-- A release of a saga. -/
def releaseCall (n : ℕ) (sagaId key : String) (h : hasNul key = false := by exact Eq.refl false) :
    Call :=
  .release (Stamp.ofKey key n h) sagaId "" key consumerRelease
    fun _ => releasedEvent (Stamp.ofKey key n h) sagaId "" ""

def sagaA : String := "00000000-0000-0000-0000-00000000000a"

def sagaB : String := "00000000-0000-0000-0000-00000000000b"

/-- Two sagas reserve, and the first is released. -/
def twoSagas : List Call :=
  [reserveCall 1 sagaA "k1" (.lit 3) (by decide),
    reserveCall 2 sagaB "k2" (.lit 2) (by decide), releaseCall 3 sagaA "k3"]

theorem accounted_throughout_twoSagas :
    Throughout Call.exec Accounted (Db.ofStock tenUnits) twoSagas :=
  ((accounted_throughout_iff (Db.ofStock tenUnits) (by decide) rfl twoSagas).1).mpr
    (by decide +kernel)

/-- A saga reserves again after its release, under a new key. -/
def reserveAgain : List Call :=
  [reserveCall 1 sagaA "k1" (.lit 3) (by decide), releaseCall 2 sagaA "k2",
    reserveCall 3 sagaA "k3" (.lit 2) (by decide)]

/-- Two units stay reserved that no RESERVED row holds, and no release returns them. -/
theorem not_accounted_reserveAgain :
    (∀ row ∈ (Db.ofStock tenUnits).stock.rows, row.reserved.val = 0) ∧
      (Db.ofStock tenUnits).reservations = Table.empty ∧
      ¬Accounted (runFrom Call.exec (Db.ofStock tenUnits) reserveAgain) ∧
      reserved (runFrom Call.exec (Db.ofStock tenUnits)
        (reserveAgain ++ [releaseCall 4 sagaA "k4"])).stock "SKU-1" = 2 := by
  refine ⟨by decide, rfl, fun h => ?_, by decide +kernel⟩
  exact absurd (h "SKU-1") (by decide +kernel)

/-! ## What a request runs -/

/-- What reaches the service : its two RPCs, and the deliveries of `order.cancelled`. -/
inductive Request
  | reserveStock (newId : Uuid) (stamp : Stamp) (req : ReserveStockRequest)
  | releaseStock (stamp : Stamp) (req : ReleaseStockRequest)
  | orderCancelled (stamp : Stamp) (env : Envelope) (inTraceparent : String)

/-- The tables after a request. -/
def Request.exec (db : Db) : Request → Db
  | .reserveStock newId stamp req => committed db (Server.reserveStock db newId stamp req)
  | .releaseStock stamp req => committed db (Server.releaseStock db stamp req)
  | .orderCancelled stamp env inTraceparent =>
    committed db (handleOrderCancelled db stamp env inTraceparent)

/-- The arguments of `release`, and the traceparent of its event. -/
structure ReleaseArgs where
  stamp : Stamp
  sagaId : String
  reservationId : String
  idem : String
  consumer : String
  traceparent : String

/-- The event of the release. -/
def ReleaseArgs.event (a : ReleaseArgs) : OutboxInsert :=
  releasedEvent a.stamp a.sagaId a.reservationId a.traceparent

/-- The release that a request runs, on either path. -/
def Request.release? : Request → Option ReleaseArgs
  | .reserveStock .. => none
  | .releaseStock stamp req => some ⟨stamp, req.sagaId, req.reservationId, req.idempotencyKey,
      consumerRelease, stamp.traceparent⟩
  | .orderCancelled stamp env inTraceparent =>
    match dataValue env.data "reservationId" "" with
    | .error _ => none
    | .ok reservationId => some ⟨stamp, env.sagaId, reservationId, env.idempotencyKey,
        consumerOrderCancelled, if env.traceparent ≠ "" then env.traceparent else inTraceparent⟩

/-- The saga that a request names. -/
def Request.saga : Request → Option Uuid
  | .reserveStock _ _ req => uuidIn req.sagaId
  | .releaseStock _ req => uuidIn req.sagaId
  | .orderCancelled _ env _ => uuidIn env.sagaId

variable {db db' : Db} {q : Request} {a : ReleaseArgs} {u : Uuid}

theorem Request.saga_of_release? (h : q.release? = some a) : q.saga = uuidIn a.sagaId := by
  cases q with
  | reserveStock newId stamp req => cases h
  | releaseStock stamp req =>
    cases h
    rfl
  | orderCancelled stamp env inTraceparent =>
    simp only [release?] at h
    split at h
    · cases h
    · cases h
      rfl

theorem Request.exec_of_release? (h : q.release? = some a) (db : Db) :
    q.exec db = committed db (release db a.stamp a.sagaId a.reservationId a.idem a.consumer
      fun _ => a.event) := by
  cases q with
  | reserveStock newId stamp req => cases h
  | releaseStock stamp req =>
    cases h
    simp only [exec, Server.releaseStock, InventoryService.releaseStock, ReleaseArgs.event]
    split <;> simp_all [committed]
  | orderCancelled stamp env inTraceparent =>
    simp only [release?] at h
    split at h
    · cases h
    next reservationId hid =>
      cases h
      simp only [exec, handleOrderCancelled, hid, ReleaseArgs.event]
      split <;> simp_all [committed]

theorem Request.cString_consumer (h : q.release? = some a) : cString a.consumer = a.consumer := by
  cases q with
  | reserveStock newId stamp req => cases h
  | releaseStock stamp req =>
    cases h
    exact cString_consumerRelease
  | orderCancelled stamp env inTraceparent =>
    simp only [release?] at h
    split at h
    · cases h
    · cases h
      exact cString_consumerOrderCancelled

/-- Everything that a request can do to the tables. -/
theorem Request.exec_cases (db : Db) (q : Request) :
    q.exec db = db ∨
      (∃ newId stamp req, q = .reserveStock newId stamp req ∧
        (Refuses db stamp (cString req.idempotencyKey) (failedEvent stamp req.sagaId req.sku
            req.quantity (failureReason req.sku) stamp.traceparent) (q.exec db) ∨
          isPoisonSku req.sku = false ∧ hasNul req.sku = false ∧
            ∃ u outcome, uuidIn req.sagaId = some u ∧
              Takes db newId stamp u (cString req.idempotencyKey) req.sku req.quantity
                (reservedEvent stamp req.sagaId req.sku req.quantity outcome stamp.traceparent)
                (q.exec db))) ∨
      ∃ a, q.release? = some a ∧
        (q.exec db = { db with processed := (cString a.idem, a.consumer) :: db.processed } ∨
          hasNul a.traceparent = false ∧ hasNul a.reservationId = false ∧
            ∃ u r, uuidIn a.sagaId = some u ∧
              Releases db a.stamp u r (cString a.idem) a.consumer a.event (q.exec db)) := by
  cases hq : q.release? with
  | some a =>
    cases hrel : release db a.stamp a.sagaId a.reservationId a.idem a.consumer fun _ => a.event with
    | error e => exact Or.inl (by rw [exec_of_release? hq, hrel, committed])
    | ok x =>
      obtain ⟨outcome, db'⟩ := x
      have hexec : q.exec db = db' := by rw [exec_of_release? hq, hrel, committed]
      have hcases := release_releasedEvent_cases hrel
      rw [cString_consumer hq] at hcases
      rw [hexec]
      obtain ⟨-, hdb, -⟩ | ⟨-, -, -, hdb⟩ | ⟨-, htrace, hid, u, r, hu, hr⟩ := hcases
      · exact Or.inl hdb
      · exact Or.inr (Or.inr ⟨a, rfl, Or.inl hdb⟩)
      · exact Or.inr (Or.inr ⟨a, rfl, Or.inr ⟨htrace, hid, u, r, hu, hr⟩⟩)
  | none =>
  cases q with
  | releaseStock stamp req => cases hq
  | orderCancelled stamp env inTraceparent =>
    simp only [release?] at hq
    split at hq
    next e he => exact Or.inl (by simp only [exec, handleOrderCancelled, he, committed])
    · cases hq
  | reserveStock newId stamp req =>
    cases hres : Server.reserveStock db newId stamp req with
    | error e => exact Or.inl (by rw [exec, hres, committed])
    | ok x =>
      obtain ⟨result, db'⟩ := x
      have hexec : (Request.reserveStock newId stamp req).exec db = db' := by
        rw [exec, hres, committed]
      rw [hexec]
      obtain ⟨hdb, -⟩ | ⟨-, -, -, href⟩ | ⟨-, hclean, hsku, u, hu, -, ht⟩ := reserveStock_cases hres
      · exact Or.inl hdb
      · exact Or.inr (Or.inl ⟨newId, stamp, req, rfl, Or.inl href⟩)
      · exact Or.inr (Or.inl ⟨newId, stamp, req, rfl, Or.inr ⟨hclean, hsku, u, _, hu, ht⟩⟩)

/-- A ReserveStock request with a new key takes stock that suffices. -/
theorem Request.takes {newId : Uuid} {stamp : Stamp} {req : ReserveStockRequest} {stock : Stock}
    (hfresh : (cString req.idempotencyKey, consumerReserve) ∉ db.processed)
    (hclean : isPoisonSku req.sku = false) (henough : req.quantity.val ≤ available db.stock req.sku)
    (hmove : moveStock db.stock req.sku req.quantity.val = .ok stock)
    (hu : uuidIn req.sagaId = some u) (hfree : db.outbox.find? stamp.rowId = none)
    (hsku : hasNul req.sku = false) :
    ∃ ob, Takes db newId stamp u (cString req.idempotencyKey) req.sku req.quantity ob
      ((Request.reserveStock newId stamp req).exec db) := by
  have htext : ∀ outcome, hasNul outcome.reservationId = false →
      (reserveEvent stamp req.sagaId req.sku req.quantity stamp.traceparent
        outcome).payload.holdsNul = false := fun outcome hid =>
    (holdsNul_reserveEvent hid).mpr ⟨hasNul_of_uuidIn hu, stamp.hasNul_traceparent, hsku⟩
  have hcut := cString_of_hasNul hsku
  rw [← hcut] at henough hmove
  obtain ⟨outcome, db', hok, ht⟩ := reserve_takes newId hfresh hclean henough hmove
    (by rwa [cString_of_uuidIn hu]) hfree (htext _ (hasNul_uuidOut _))
  rw [hcut] at ht
  have hexec : (Request.reserveStock newId stamp req).exec db = db' := by
    rw [exec, Server.reserveStock, InventoryService.reserveStock, hok, committed]
  exact ⟨_, hexec ▸ ht⟩

/-- A release with a new key returns the units of a RESERVED row. -/
theorem Request.releases {r : Reservation} {stock : Stock} (hq : q.release? = some a)
    (hfresh : (cString a.idem, a.consumer) ∉ db.processed) (hu : uuidIn a.sagaId = some u)
    (hrow : db.reservations.find? u = some r) (hst : r.status = .reserved)
    (hmove : moveStock db.stock r.sku (-r.quantity.val) = .ok stock)
    (hfree : db.outbox.find? a.stamp.rowId = none) (htrace : hasNul a.traceparent = false)
    (hid : hasNul a.reservationId = false) :
    Releases db a.stamp u r (cString a.idem) a.consumer a.event (q.exec db) := by
  have hmark : db.markProcessed a.idem a.consumer =
      some ((cString a.idem, a.consumer) :: db.processed) :=
    Db.markProcessed_eq_some.mpr (by simpa [cString_consumer hq] using hfresh)
  have htext : a.event.payload.holdsNul = false :=
    holdsNul_releasedEvent.mpr ⟨hasNul_of_uuidIn hu, htrace, hid⟩
  obtain ⟨outbox, hb⟩ := Db.exists_insertOutbox hfree htext
  have hout := (Db.insertOutbox_eq_ok.mp hb).2
  rw [ReleaseArgs.event, cStrings_releasedEvent htext] at hout
  rw [exec_of_release? hq]
  simp only [release, hmark, cString_of_uuidIn hu, hu, hrow, hst, ne_eq, not_true, if_false, hmove,
    hb, committed]
  exact ⟨hfresh, hrow, hst, hmove, rfl, rfl, hout⟩

/-! ## The bounds under the RPCs -/

/-- The units of every SKU are those of `stock₀`, and none of the two counts leaves the
range from zero to their total; every reservation is of a SKU that has a stock row. -/
structure Bounded (stock₀ : Stock) (db : Db) : Prop where
  total : ∀ sku, available db.stock sku + reserved db.stock sku =
    available stock₀ sku + reserved stock₀ sku
  availableRange : ∀ sku, 0 ≤ available db.stock sku ∧
    available db.stock sku ≤ available stock₀ sku + reserved stock₀ sku
  reservedRange : ∀ sku, 0 ≤ reserved db.stock sku ∧
    reserved db.stock sku ≤ available stock₀ sku + reserved stock₀ sku
  backed : ∀ r ∈ db.reservations.rows, (db.stock.find? r.sku).isSome

/-- A ReserveStock request that is not answered from the tables as they are, by its key
or for its SKU, asks for a positive quantity, or for none of a SKU that has a stock
row. -/
def Request.Admissible (db : Db) : Request → Prop
  | .reserveStock _ _ req =>
    (cString req.idempotencyKey, consumerReserve) ∈ db.processed ∨ isPoisonSku req.sku = true ∨
      0 < req.quantity.val ∨ req.quantity.val = 0 ∧ (db.stock.find? req.sku).isSome
  | _ => True

instance (db : Db) : (r : Request) → Decidable (r.Admissible db)
  | .reserveStock .. => inferInstanceAs (Decidable (_ ∨ _))
  | .releaseStock .. => inferInstanceAs (Decidable True)
  | .orderCancelled .. => inferInstanceAs (Decidable True)

/-- A move of `n` units from `available` to `reserved` takes one of them below zero, and the
columns hold the result. -/
def Leaves (stock : Stock) (sku : String) (n : ℤ) : Prop :=
  (available stock sku - n < 0 ∨ reserved stock sku + n < 0) ∧
    available stock sku - n ≤ 2147483647 ∧ reserved stock sku + n ≤ 2147483647

/-- The release returns a RESERVED row of more than is reserved, or, where the row is of a
negative quantity, takes more than is available. -/
def ReleaseArgs.Oversteps (db : Db) (a : ReleaseArgs) : Prop :=
  (cString a.idem, a.consumer) ∉ db.processed ∧ db.outbox.find? a.stamp.rowId = none ∧
    hasNul a.traceparent = false ∧ hasNul a.reservationId = false ∧
    ∃ u r, uuidIn a.sagaId = some u ∧ db.reservations.find? u = some r ∧ r.status = .reserved ∧
      Leaves db.stock r.sku (-r.quantity.val)

/-- The request takes the stock out of its bounds. A ReserveStock does so that is granted and
takes more back than is reserved, or that is granted of a SKU without a stock row to a saga that
has no reservation. -/
def Request.Oversteps (db : Db) : Request → Prop
  | .reserveStock _ stamp req =>
    (cString req.idempotencyKey, consumerReserve) ∉ db.processed ∧ isPoisonSku req.sku = false ∧
      req.quantity.val ≤ available db.stock req.sku ∧ db.outbox.find? stamp.rowId = none ∧
      hasNul req.sku = false ∧ ∃ u, uuidIn req.sagaId = some u ∧
        if (db.stock.find? req.sku).isSome then Leaves db.stock req.sku req.quantity.val
        else db.reservations.find? u = none
  | q => ∃ a, q.release? = some a ∧ a.Oversteps db

namespace Bounded

variable {stock₀ : Stock}

/-- A move that leaves no count below zero keeps the bounds. -/
theorem of_moved (h : Bounded stock₀ db) {sku : String} {n : ℤ}
    (hm : Moved db.stock sku n db'.stock) (hn : (db.stock.find? sku).isSome →
      0 ≤ InventoryService.available db.stock sku - n ∧
        0 ≤ InventoryService.reserved db.stock sku + n)
    (hrows : ∀ r ∈ db'.reservations.rows, (db.stock.find? r.sku).isSome) : Bounded stock₀ db' := by
  have hrange : ∀ sku', 0 ≤ InventoryService.available db'.stock sku' ∧
      0 ≤ InventoryService.reserved db'.stock sku' := by
    intro sku'
    have havail := (h.availableRange sku').1
    have hres := (h.reservedRange sku').1
    rw [hm.available, hm.reserved]
    split_ifs with hs
    · rw [hs.1]
      exact hn hs.2
    · omega
  have htotal : ∀ sku', InventoryService.available db'.stock sku' +
      InventoryService.reserved db'.stock sku' = InventoryService.available stock₀ sku' +
        InventoryService.reserved stock₀ sku' := by
    intro sku'
    rw [hm.available, hm.reserved, ← h.total sku']
    omega
  refine ⟨htotal, fun sku' => ?_, fun sku' => ?_, fun r hr => ?_⟩
  · have := htotal sku'
    have := hrange sku'
    omega
  · have := htotal sku'
    have := hrange sku'
    omega
  · rw [hm.rows]
    exact hrows r hr

theorem congr (h : Bounded stock₀ db) (hstock : db'.stock = db.stock)
    (hres : db'.reservations = db.reservations) : Bounded stock₀ db' := by
  obtain ⟨h1, h2, h3, h4⟩ := h
  rw [← hstock] at h1 h2 h3 h4
  rw [← hres] at h4
  exact ⟨h1, h2, h3, h4⟩

/-- A move within the bounds leaves no count below zero. -/
theorem not_leaves {sku : String} {n : ℤ} (h' : Bounded stock₀ db')
    (hm : Moved db.stock sku n db'.stock) (hrow : (db.stock.find? sku).isSome) :
    ¬Leaves db.stock sku n := by
  rintro ⟨hlow, -⟩
  have havail := (h'.availableRange sku).1
  have hres := (h'.reservedRange sku).1
  rw [hm.available, if_pos ⟨rfl, hrow⟩] at havail
  rw [hm.reserved, if_pos ⟨rfl, hrow⟩] at hres
  omega

/-- The counts of a move that fits the columns and does not leave the bounds are not negative. -/
theorem nonneg_of_not_leaves {sku : String} {n : ℤ} {stock' : Stock}
    (hm : Moved db.stock sku n stock') (hrow : (db.stock.find? sku).isSome)
    (hl : ¬Leaves db.stock sku n) : 0 ≤ InventoryService.available db.stock sku - n ∧
      0 ≤ InventoryService.reserved db.stock sku + n := by
  have havail := available_le stock' sku
  have hres := reserved_le stock' sku
  rw [hm.available, if_pos ⟨rfl, hrow⟩] at havail
  rw [hm.reserved, if_pos ⟨rfl, hrow⟩] at hres
  by_contra hneg
  exact hl ⟨by omega, havail, hres⟩

/-- A move that leaves the bounds fits the columns. -/
theorem exists_moveStock_of_leaves (h : Bounded stock₀ db) {sku : String} {n : ℤ}
    (hn : -2147483648 ≤ n ∧ n ≤ 2147483648) (hl : Leaves db.stock sku n) :
    ∃ stock, moveStock db.stock sku n = .ok stock := by
  have havail := (h.availableRange sku).1
  have hres := (h.reservedRange sku).1
  obtain ⟨hlower, hupper⟩ := hn
  obtain ⟨-, hup, hup'⟩ := hl
  exact exists_moveStock (by omega) (by omega)

/-- A granted request keeps the bounds exactly if it does not overstep. -/
theorem takes_iff (h : Bounded stock₀ db) {newId : Uuid} {stamp : Stamp} {idem sku : String}
    {quantity : Int4} {ob : OutboxInsert} (ht : Takes db newId stamp u idem sku quantity ob db') :
    Bounded stock₀ db' ↔ ¬if (db.stock.find? sku).isSome then Leaves db.stock sku quantity.val
      else db.reservations.find? u = none := by
  have hm := moved_of_moveStock ht.stock
  split_ifs with hrow
  · refine ⟨fun h' => h'.not_leaves hm hrow, fun hl => ?_⟩
    refine h.of_moved hm (fun _ => nonneg_of_not_leaves hm hrow hl) fun r hr => ?_
    rw [ht.reservations] at hr
    obtain hr | rfl := mem_upsertReservation hr
    · exact h.backed r hr
    · exact hrow
  · constructor
    · intro h' hnone
      have hmem : (⟨newId, u, sku, quantity, .reserved⟩ : Reservation) ∈ db'.reservations.rows := by
        refine (Table.find?_eq_some (k := u)).mp ?_ |>.1
        rw [ht.reservations, find?_upsertReservation hnone]
        exact if_pos rfl
      have hbacked := h'.backed _ hmem
      rw [hm.rows] at hbacked
      exact hrow hbacked
    · intro hsome
      refine h.of_moved hm (fun hsome => absurd hsome hrow) ?_
      obtain ⟨-, hup⟩ | ⟨hnone, -⟩ :=
        upsertReservation_cases db.reservations ⟨newId, u, sku, quantity, .reserved⟩
      · rw [ht.reservations, hup]
        exact h.backed
      · exact absurd hnone hsome

/-- A release keeps the bounds exactly if it does not overstep. -/
theorem releases_iff (h : Bounded stock₀ db) {stamp : Stamp} {r : Reservation}
    {idem consumer : String} {ob : OutboxInsert}
    (hr : Releases db stamp u r idem consumer ob db') :
    Bounded stock₀ db' ↔ ¬Leaves db.stock r.sku (-r.quantity.val) := by
  have hm := moved_of_moveStock hr.stock
  have hrow := h.backed r (Table.find?_eq_some.mp hr.row).1
  refine ⟨fun h' => h'.not_leaves hm hrow, fun hl => ?_⟩
  refine h.of_moved hm (fun _ => nonneg_of_not_leaves hm hrow hl) fun r' hr' => ?_
  rw [hr.reservations] at hr'
  obtain ⟨r'', hr'', hsku, -⟩ := mem_setReleased hr'
  rw [← hsku]
  exact h.backed r'' hr''

theorem not_exec_release (h : Bounded stock₀ db) (ha : q.release? = some a)
    (hover : a.Oversteps db) : ¬Bounded stock₀ (q.exec db) := by
  obtain ⟨hfresh, hfree, htrace, hid, u, r, hu, hrow, hst, hl⟩ := hover
  have hlower := r.quantity.lower
  have hupper := r.quantity.upper
  obtain ⟨stock, hmove⟩ := h.exists_moveStock_of_leaves (by omega) hl
  have hr := Request.releases ha hfresh hu hrow hst hmove hfree htrace hid
  exact fun h' => (h.releases_iff hr).mp h' hl

/-- A request that oversteps loses the bounds. -/
theorem not_exec (h : Bounded stock₀ db) (hq : q.Oversteps db) : ¬Bounded stock₀ (q.exec db) := by
  cases q with
  | reserveStock newId stamp req =>
    obtain ⟨hfresh, hclean, henough, hfree, hsku, u, hu, hout⟩ := hq
    obtain ⟨stock, hmove⟩ : ∃ stock, moveStock db.stock req.sku req.quantity.val = .ok stock := by
      split_ifs at hout with hrow
      · have hlower := req.quantity.lower
        have hupper := req.quantity.upper
        exact h.exists_moveStock_of_leaves (by omega) hout
      · exact ⟨db.stock, by simp [moveStock, Option.not_isSome_iff_eq_none.mp hrow]⟩
    obtain ⟨ob, ht⟩ := Request.takes hfresh hclean henough hmove hu hfree hsku
    exact fun h' => (h.takes_iff ht).mp h' hout
  | releaseStock stamp req =>
    obtain ⟨a, ha, hover⟩ := hq
    exact h.not_exec_release ha hover
  | orderCancelled stamp env inTraceparent =>
    obtain ⟨a, ha, hover⟩ := hq
    exact h.not_exec_release ha hover

/-- A request keeps the bounds exactly if it does not overstep. -/
theorem exec_iff (db : Db) (q : Request) (h : Bounded stock₀ db) :
    Bounded stock₀ (q.exec db) ↔ ¬q.Oversteps db := by
  refine ⟨fun h' hq => h.not_exec hq h', fun hq => ?_⟩
  obtain hdb | ⟨newId, stamp, req, rfl, href | ⟨hclean, hsku, u, outcome, hu, ht⟩⟩ |
    ⟨a, ha, hdb | ⟨htrace, hid, u, r, hu, hr⟩⟩ := q.exec_cases db
  · rw [hdb]
    exact h
  · exact h.congr href.stock href.reservations
  · refine (h.takes_iff ht).mpr fun hout => hq ?_
    exact ⟨ht.fresh, hclean, ht.enough, (insertOutbox_eq_ok.mp ht.outbox).1, hsku, u, hu, hout⟩
  · exact h.congr (by rw [hdb]) (by rw [hdb])
  · refine (h.releases_iff hr).mpr fun hl => hq ?_
    have hover : ∃ a, q.release? = some a ∧ a.Oversteps db :=
      ⟨a, ha, hr.fresh, (insertOutbox_eq_ok.mp hr.outbox).1, htrace, hid, u, r, hu, hr.row,
        hr.status, hl⟩
    cases q with
    | reserveStock newId stamp req => cases ha
    | releaseStock stamp req => exact hover
    | orderCancelled stamp env inTraceparent => exact hover

end Bounded

theorem sound_request {stock₀ : Stock} (db : Db) (r : Request) (h : Sound stock₀ db)
    (hr : r.Admissible db) : Sound stock₀ (r.exec db) := by
  obtain hdb | ⟨newId, stamp, req, rfl, href | ⟨hclean, -, u, outcome, -, ht⟩⟩ |
    ⟨a, ha, hdb | ⟨-, -, u, r', -, hr'⟩⟩ := r.exec_cases db
  · rw [hdb]
    exact h
  · exact h.congr href.stock href.reservations
  · rcases hr with hr | hr | hr
    · exact absurd hr ht.fresh
    · simp [hclean] at hr
    · exact h.takes ht hr
  · exact h.congr (by rw [hdb]) (by rw [hdb])
  · exact h.releases hr'

theorem Sound.bounded {stock₀ : Stock} {db : Db} (h : Sound stock₀ db)
    (h₀ : ∀ sku, 0 ≤ InventoryService.available stock₀ sku) : Bounded stock₀ db := by
  have hle : ∀ sku, 0 ≤ InventoryService.available db.stock sku ∧
      0 ≤ InventoryService.reserved db.stock sku := by
    intro sku
    have hlow := h.lower sku
    have hheld := h.held sku
    have hsum := h.reservedSum_nonneg sku
    have := h₀ sku
    omega
  refine ⟨h.total, fun sku => ?_, fun sku => ?_, h.backed⟩
  · have := h.total sku
    have := hle sku
    omega
  · have := h.total sku
    have := hle sku
    omega

/-- The bounds hold throughout a run exactly if no request oversteps them, and so they do if all
ReserveStock requests are admissible. -/
theorem bounded_throughout_iff (db : Db)
    (hstock : ∀ row ∈ db.stock.rows, 0 ≤ row.available.val ∧ 0 ≤ row.reserved.val)
    (hres : db.reservations = Table.empty) (requests : List Request) :
    (Throughout Request.exec (Bounded db.stock) db requests ↔
        Along Request.exec (fun db r => ¬r.Oversteps db) db requests) ∧
      (Along Request.exec (fun db r => r.Admissible db) db requests →
        Throughout Request.exec (Bounded db.stock) db requests) := by
  have hnonneg : ∀ sku, 0 ≤ available db.stock sku ∧ 0 ≤ reserved db.stock sku := by
    intro sku
    unfold available reserved
    cases hrow : db.stock.find? sku with
    | none => exact ⟨le_refl 0, le_refl 0⟩
    | some row => exact hstock row (Table.find?_eq_some.mp hrow).1
  have hsound : Sound db.stock db := Sound.init hres fun sku => (hnonneg sku).2
  have hbounded : Bounded db.stock db := hsound.bounded fun sku => (hnonneg sku).1
  refine ⟨throughout_iff_along (I := fun _ => True) (fun _ _ _ => trivial)
    (fun db q _ h => Bounded.exec_iff db q h) trivial hbounded, fun h => ?_⟩
  exact (throughout_of_along sound_request hsound h).mono
    fun s hs => hs.bounded fun sku => (hnonneg sku).1

/-- A ReserveStock request for `quantity` units of a SKU. -/
def reserveRequest (n : ℕ) (sagaId key sku : String) (quantity : Int4)
    (h : hasNul key = false := by exact Eq.refl false) : Request :=
  .reserveStock n (Stamp.ofKey key n h) ⟨sagaId, key, sku, quantity⟩

theorem bounded_throughout_pair :
    Throughout Request.exec (Bounded tenUnits) (Db.ofStock tenUnits)
      [reserveRequest 1 sagaA "k1" "SKU-1" (.lit 4),
        .releaseStock (Stamp.ofKey "k2" 2) ⟨sagaA, "", "k2"⟩] :=
  (bounded_throughout_iff (Db.ofStock tenUnits) (by decide) rfl _).2 (by decide +kernel)

/-- A negative quantity adds to the stock, and a zero one is reserved of a SKU that has
no stock row. -/
theorem not_bounded_negative :
    (∀ row ∈ (Db.ofStock tenUnits).stock.rows, 0 ≤ row.available.val ∧ 0 ≤ row.reserved.val) ∧
      (Db.ofStock tenUnits).reservations = Table.empty ∧
      ¬Bounded tenUnits (runFrom Request.exec (Db.ofStock tenUnits)
        [reserveRequest 1 sagaA "k1" "SKU-1" (.lit (-5))]) ∧
      ¬Bounded tenUnits (runFrom Request.exec (Db.ofStock tenUnits)
        [reserveRequest 1 sagaA "k1" "SKU-2" (.lit 0)]) := by
  refine ⟨by decide, rfl, fun h => ?_, fun h => ?_⟩
  · exact absurd (h.reservedRange "SKU-1").1 (by decide +kernel)
  · exact absurd h.backed (by decide +kernel)

end Choreography.InventoryService
