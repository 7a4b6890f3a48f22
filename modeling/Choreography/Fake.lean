import Choreography.Releases

/-!
# The repository of the unit tests

`FakeRepository` stands for the database in the unit tests of the Inventory service. It keeps
its reservations under the text of the saga id and its processed messages under one text
made of the key and the consumer, and it assigns a reservation where the database upserts
one. It keeps every text whole, where the database cuts them at the first NUL and refuses a
payload that has one.

Beside each other on the same stock, the two give the same answers, enqueue the same events
and keep corresponding tables exactly as long as no call diverges
(`alike_throughout_iff`) : a call diverges when the two texts of a key run together with
those of another or agree with them up to a NUL, when the database refuses the saga id, cuts the
SKU or does not keep the event, when a saga is granted a second reservation, or when a saga is
called by another spelling of its id (`Twin.Diverges`).
-/

namespace Choreography.InventoryService

/-! ## The fake -/

structure FakeReservation where
  id : String
  sku : String
  quantity : ℤ
  state : ReservationState

/-- The maps of the fake. The numbers of a SKU that has no entry are zero. -/
structure FakeRepository where
  available : String → ℤ
  reservedUnits : String → ℤ
  reservations : String → Option FakeReservation
  /-- The keys of the messages, each as `idempotency_key|consumer`. -/
  processed : List String
  emitted : List OutboxInsert
  nextId : ℕ

/-- The id of the reservation that comes after `n` others. -/
def fakeId (n : ℕ) : String := "res-" ++ toString (n + 1)

/-- The text under which a message is processed. -/
def processedKey (k : String × String) : String := k.1 ++ "|" ++ k.2

namespace FakeRepository

/-- The fake with the stock that the database starts from. -/
def ofStock (stock : Stock) : FakeRepository :=
  ⟨InventoryService.available stock, fun _ => 0, fun _ => none, [], [], 0⟩

def reserve (f : FakeRepository) (sagaId idempotencyKey sku : String) (quantity : Int4)
    (buildEvent : ReserveOutcome → OutboxInsert) : ReserveOutcome × FakeRepository :=
  let key := processedKey (idempotencyKey, consumerReserve)
  if key ∈ f.processed then
    match f.reservations sagaId with
    | some r =>
      if r.state = .reserved then (⟨.reserved, r.id, true⟩, f)
      else (⟨.insufficientStock, "", true⟩, f)
    | none => (⟨.insufficientStock, "", true⟩, f)
  else if isPoisonSku sku || f.available sku < quantity.val then
    let outcome : ReserveOutcome := ⟨.insufficientStock, "", false⟩
    (outcome, { f with
      processed := key :: f.processed
      emitted := f.emitted ++ [buildEvent outcome] })
  else
    let outcome : ReserveOutcome := ⟨.reserved, fakeId f.nextId, false⟩
    (outcome,
      { available := Function.update f.available sku (f.available sku - quantity.val)
        reservedUnits := Function.update f.reservedUnits sku (f.reservedUnits sku + quantity.val)
        reservations := Function.update f.reservations sagaId
          (some ⟨fakeId f.nextId, sku, quantity.val, .reserved⟩)
        processed := key :: f.processed
        emitted := f.emitted ++ [buildEvent outcome]
        nextId := f.nextId + 1 })

/-- The reservation id is not used. -/
def release (f : FakeRepository) (sagaId _reservationId idempotencyKey consumer : String)
    (buildEvent : ReleaseOutcome → OutboxInsert) : ReleaseOutcome × FakeRepository :=
  let key := processedKey (idempotencyKey, consumer)
  if key ∈ f.processed then (⟨false, true⟩, f)
  else
    let nothing : ReleaseOutcome × FakeRepository :=
      (⟨false, false⟩, { f with processed := key :: f.processed })
    match f.reservations sagaId with
    | none => nothing
    | some r =>
      if r.state = .reserved then
        (⟨true, false⟩,
          { f with
            available := Function.update f.available r.sku (f.available r.sku + r.quantity)
            reservedUnits :=
              Function.update f.reservedUnits r.sku (f.reservedUnits r.sku - r.quantity)
            reservations := Function.update f.reservations sagaId
              (some { r with state := .released })
            processed := key :: f.processed
            emitted := f.emitted ++ [buildEvent ⟨true, false⟩] })
      else nothing

end FakeRepository

/-! ## The two repositories beside each other -/

/-- The database takes the message for one that it has processed. -/
def Db.Seen (db : Db) (k : String × String) : Prop := (cString k.1, cString k.2) ∈ db.processed

instance (db : Db) (k : String × String) : Decidable (db.Seen k) :=
  inferInstanceAs (Decidable (_ ∈ _))

/-- The inserts into the outbox so far. -/
def Db.inserts (db : Db) : List OutboxInsert := db.outbox.rows.map OutboxRow.toOutboxInsert

/-- The fake after a call. -/
def Call.onFake (f : FakeRepository) : Call → FakeRepository
  | .reserve _ _ sagaId idem sku quantity _ build => (f.reserve sagaId idem sku quantity build).2
  | .release _ sagaId reservationId idem consumer build =>
    (f.release sagaId reservationId idem consumer build).2

/-- The id of the row of a reservation that the database grants. -/
def Call.granted (db : Db) : Call → List Uuid
  | .reserve newId stamp sagaId idem sku quantity _ build =>
    match InventoryService.reserve db newId stamp sagaId idem sku quantity build with
    | .ok (outcome, db') =>
      if outcome.status = .reserved ∧ outcome.duplicate = false then
        (((uuidIn (cString sagaId)).bind db'.reservations.find?).map Reservation.id).toList
      else []
    | .error _ => []
  | .release .. => []

/-- The fake and the database. -/
structure Twin where
  fake : FakeRepository
  db : Db
  /-- The renaming : the ids of the database for the reservations of the fake, in order. -/
  ids : List Uuid

namespace Twin

def init (stock : Stock) : Twin := ⟨.ofStock stock, .ofStock stock, []⟩

def step (t : Twin) (c : Call) : Twin :=
  ⟨c.onFake t.fake, c.exec t.db, t.ids ++ c.granted t.db⟩

/-- An id of the fake and one of the database stand for the same reservation, or both for
none. -/
def SameId (ids : List Uuid) (x y : String) : Prop :=
  (x = "" ∧ y = "") ∨ ∃ n i, ids[n]? = some i ∧ x = fakeId n ∧ y = uuidOut i

/-- A reservation of the fake and a row agree. -/
structure Matches (ids : List Uuid) (x : FakeReservation) (r : Reservation) : Prop where
  id : ∃ n : ℕ, ids[n]? = some r.id ∧ x.id = fakeId n
  sku : x.sku = r.sku
  quantity : x.quantity = r.quantity.val
  state : x.state = r.status

/-- The two are in corresponding states. -/
structure Corresponds (t : Twin) : Prop where
  available : ∀ sku, t.fake.available sku = InventoryService.available t.db.stock sku
  reserved : ∀ sku, t.fake.reservedUnits sku = InventoryService.reserved t.db.stock sku
  /-- No two reservations have one id. -/
  ids : t.ids.Nodup
  ofFake : ∀ sagaId x, t.fake.reservations sagaId = some x → ∃ u r,
    uuidIn (cString sagaId) = some u ∧ t.db.reservations.find? u = some r ∧ Matches t.ids x r
  ofDb : ∀ u r, t.db.reservations.find? u = some r → ∃ sagaId x,
    uuidIn (cString sagaId) = some u ∧ t.fake.reservations sagaId = some x ∧ Matches t.ids x r

/-- Both have enqueued the event of the call, each with its own outcome, or neither has. -/
def SameEvents {α : Type} (build : α → OutboxInsert) (t : Twin) (x : α × FakeRepository)
    (y : α × Db) : Prop :=
  (x.2.emitted = t.fake.emitted ∧ y.2.inserts = t.db.inserts) ∨
    (x.2.emitted = t.fake.emitted ++ [build x.1] ∧ y.2.inserts = t.db.inserts ++ [build y.1])

/-- The call has the same outcome and the same events on both. -/
def Alike (t : Twin) : Call → Prop
  | .reserve newId stamp sagaId idem sku quantity positive build =>
    ∃ y, InventoryService.reserve t.db newId stamp sagaId idem sku quantity build = .ok y ∧
      (t.fake.reserve sagaId idem sku quantity build).1.status = y.1.status ∧
      (t.fake.reserve sagaId idem sku quantity build).1.duplicate = y.1.duplicate ∧
      SameId (t.step (.reserve newId stamp sagaId idem sku quantity positive build)).ids
        (t.fake.reserve sagaId idem sku quantity build).1.reservationId y.1.reservationId ∧
      SameEvents build t (t.fake.reserve sagaId idem sku quantity build) y
  | .release stamp sagaId reservationId idem consumer build =>
    ∃ y, InventoryService.release t.db stamp sagaId reservationId idem consumer build = .ok y ∧
      (t.fake.release sagaId reservationId idem consumer build).1 = y.1 ∧
      SameEvents build t (t.fake.release sagaId reservationId idem consumer build) y

/-- One of the two has processed a message that it takes for this one, and the other has not.
The fake compares the key and the consumer run together, the database each up to its first
NUL. -/
def Collides (t : Twin) (k : String × String) : Prop :=
  ¬(processedKey k ∈ t.fake.processed ↔ t.db.Seen k)

/-- The database refuses the saga id, or it has a RESERVED row for the saga that the fake
does not know by this id. -/
def Unmatched (t : Twin) (sagaId : String) : Prop :=
  uuidIn (cString sagaId) = none ∨
    ∃ u ∈ uuidIn (cString sagaId), Reserved t.db u ∧ t.fake.reservations sagaId = none

/-- One of the two finds enough of the SKU, the database of the text up to its first NUL. -/
def Sufficient (t : Twin) (sku : String) (quantity : Int4) : Prop :=
  isPoisonSku sku = false ∧ (quantity.val ≤ available t.db.stock sku ∨
    quantity.val ≤ available t.db.stock (cString sku))

/-- The database stores the event as it is. -/
def Kept (ob : OutboxInsert) : Prop := ob.payload.holdsNul = false ∧ ob.cStrings = ob

instance (t : Twin) (sku : String) (quantity : Int4) : Decidable (Sufficient t sku quantity) :=
  inferInstanceAs (Decidable (_ ∧ _))

/-- The calls on which the two part. -/
def Diverges (t : Twin) : Call → Prop
  | .reserve newId _ sagaId idem sku quantity _ build =>
    Collides t (idem, consumerReserve) ∨
      (t.db.Seen (idem, consumerReserve) ∧ Unmatched t sagaId) ∨
      (¬t.db.Seen (idem, consumerReserve) ∧
        if Sufficient t sku quantity then
          cString sku ≠ sku ∨ uuidIn (cString sagaId) = none ∨
            (∃ u ∈ uuidIn (cString sagaId), t.db.reservations.find? u ≠ none) ∨
            ¬Kept (build ⟨.reserved, uuidOut newId, false⟩)
        else ¬Kept (build ⟨.insufficientStock, "", false⟩))
  | .release _ sagaId _ idem consumer build =>
    Collides t (idem, consumer) ∨
      (¬t.db.Seen (idem, consumer) ∧ (Unmatched t sagaId ∨
        (∃ u ∈ uuidIn (cString sagaId), Reserved t.db u) ∧ ¬Kept (build ⟨true, false⟩)))

/-- The ids that the call draws are new. -/
def Fresh (t : Twin) : Call → Prop
  | .reserve newId stamp .. => t.db.outbox.find? stamp.rowId = none ∧
    ∀ r ∈ t.db.reservations.rows, r.id ≠ newId
  | .release stamp .. => t.db.outbox.find? stamp.rowId = none

/-! ## What lasts until a call diverges -/

/-- The renaming covers the reservations, and the fake knows each saga by one id. -/
structure Linked (stock₀ : Stock) (t : Twin) : Prop where
  nextId : t.fake.nextId = t.ids.length
  owned : ∀ i ∈ t.ids, ∃ r ∈ t.db.reservations.rows, r.id = i
  spelled : ∀ sagaId sagaId', t.fake.reservations sagaId ≠ none →
    t.fake.reservations sagaId' ≠ none → uuidIn (cString sagaId) = uuidIn (cString sagaId') →
    sagaId = sagaId'
  sound : Sound stock₀ t.db

variable {stock₀ : Stock} {t t' : Twin}

theorem Matches.append {ids : List Uuid} {x : FakeReservation} {r : Reservation}
    (h : Matches ids x r) (ids' : List Uuid) : Matches (ids ++ ids') x r := by
  obtain ⟨n, hn, hx⟩ := h.id
  refine ⟨⟨n, ?_, hx⟩, h.sku, h.quantity, h.state⟩
  rw [List.getElem?_append_left (List.getElem?_eq_some_iff.mp hn).1]
  exact hn

theorem Matches.sameId {ids : List Uuid} {x : FakeReservation} {r : Reservation}
    (h : Matches ids x r) : SameId ids x.id (uuidOut r.id) := by
  obtain ⟨n, hn, hx⟩ := h.id
  exact Or.inr ⟨n, r.id, hn, hx, rfl⟩

/-- A call that only adds its key and its event keeps the correspondence. -/
theorem Corresponds.congr (h : Corresponds t) (havail : t'.fake.available = t.fake.available)
    (hunits : t'.fake.reservedUnits = t.fake.reservedUnits)
    (hfake : t'.fake.reservations = t.fake.reservations) (hstock : t'.db.stock = t.db.stock)
    (hres : t'.db.reservations = t.db.reservations) (hids : t'.ids = t.ids) :
    Corresponds t' where
  available := by rw [havail, hstock]; exact h.available
  reserved := by rw [hunits, hstock]; exact h.reserved
  ids := by rw [hids]; exact h.ids
  ofFake := by rw [hfake, hres, hids]; exact h.ofFake
  ofDb := by rw [hfake, hres, hids]; exact h.ofDb

theorem Linked.congr (h : Linked stock₀ t) (hnext : t'.fake.nextId = t.fake.nextId)
    (hfake : t'.fake.reservations = t.fake.reservations)
    (hres : t'.db.reservations = t.db.reservations) (hstock : t'.db.stock = t.db.stock)
    (hids : t'.ids = t.ids) : Linked stock₀ t' where
  nextId := by rw [hnext, hids]; exact h.nextId
  owned := by rw [hids, hres]; exact h.owned
  spelled := by rw [hfake]; exact h.spelled
  sound := h.sound.congr hstock hres

theorem Corresponds.row (h : Corresponds t) {sagaId : String} {x : FakeReservation} {u : Uuid}
    (hx : t.fake.reservations sagaId = some x) (hu : uuidIn (cString sagaId) = some u) :
    ∃ r, t.db.reservations.find? u = some r ∧ Matches t.ids x r := by
  obtain ⟨v, r, hv, hr, hm⟩ := h.ofFake sagaId x hx
  rw [hu, Option.some.injEq] at hv
  exact ⟨r, hv ▸ hr, hm⟩

/-- Where the fake knows no reservation of the saga, a matched saga has no RESERVED row. -/
theorem not_reserved_of_none {sagaId : String} {u : Uuid} (hmatch : ¬Unmatched t sagaId)
    (hu : uuidIn (cString sagaId) = some u) (hx : t.fake.reservations sagaId = none) :
    ¬Reserved t.db u := fun hres => hmatch (Or.inr ⟨u, hu, hres, hx⟩)

theorem reserved_iff {u : Uuid} {r : Reservation} (hr : t.db.reservations.find? u = some r) :
    Reserved t.db u ↔ r.status = .reserved := by
  simp [Reserved, hr]

/-- No text that the fake knows denotes a saga without a row. -/
theorem Corresponds.ne_of_none (h : Corresponds t) {u : Uuid}
    (hnone : t.db.reservations.find? u = none) {sagaId : String}
    (hknown : t.fake.reservations sagaId ≠ none) : uuidIn (cString sagaId) ≠ some u := by
  intro hu
  obtain ⟨x, hx⟩ := Option.ne_none_iff_exists'.mp hknown
  obtain ⟨r, hr, -⟩ := h.row hx hu
  exact nomatch hnone.symm.trans hr

/-- Both move `q` units of a SKU, and the saga, which the fake knows by one id, has a new
reservation in both. -/
theorem Corresponds.update (h : Corresponds t) {f' : FakeRepository} {db' : Db}
    {ids' : List Uuid} {sku sagaId : String} {q : ℤ} {u : Uuid} {x : FakeReservation}
    {r : Reservation} (hmoved : Moved t.db.stock sku q db'.stock)
    (hrow : (t.db.stock.find? sku).isSome)
    (havail : f'.available = Function.update t.fake.available sku (t.fake.available sku - q))
    (hunits : f'.reservedUnits =
      Function.update t.fake.reservedUnits sku (t.fake.reservedUnits sku + q))
    (hids : ids'.Nodup) (hkeep : ∀ {y r'}, Matches t.ids y r' → Matches ids' y r')
    (hu : uuidIn (cString sagaId) = some u)
    (hone : ∀ {s}, s ≠ sagaId → t.fake.reservations s ≠ none → uuidIn (cString s) ≠ some u)
    (hmatch : Matches ids' x r)
    (hfake : f'.reservations = Function.update t.fake.reservations sagaId (some x))
    (hfind : ∀ v, db'.reservations.find? v =
      if v = u then some r else t.db.reservations.find? v) :
    Corresponds ⟨f', db', ids'⟩ where
  available sku' := by
    rw [havail, hmoved.available, Function.update_apply, h.available, h.available]
    by_cases hs : sku' = sku <;> simp [hs, hrow]
  reserved sku' := by
    rw [hunits, hmoved.reserved, Function.update_apply, h.reserved, h.reserved]
    by_cases hs : sku' = sku <;> simp [hs, hrow]
  ids := hids
  ofFake s y hy := by
    simp only [hfake, Function.update_apply] at hy
    split_ifs at hy with hs
    · cases hy
      exact ⟨u, r, hs ▸ hu, by rw [hfind, if_pos rfl], hmatch⟩
    · obtain ⟨v, r', hv, hr', hm⟩ := h.ofFake s y hy
      have hvu : v ≠ u := fun hvu => hone hs (by simp [hy]) (hvu ▸ hv)
      exact ⟨v, r', hv, by rw [hfind, if_neg hvu, hr'], hkeep hm⟩
  ofDb v r' hr' := by
    rw [hfind] at hr'
    split_ifs at hr' with hv
    · cases hr'
      exact ⟨sagaId, x, hv ▸ hu, by rw [hfake, Function.update_self], hmatch⟩
    · obtain ⟨s, y, hs, hy, hm⟩ := h.ofDb v r' hr'
      have hne : s ≠ sagaId := by
        rintro rfl
        exact hv (Option.some.inj (hs.symm.trans hu))
      exact ⟨s, y, hs, by rw [hfake, Function.update_of_ne hne, hy], hkeep hm⟩

/-- What the calls keep up that do not diverge. -/
def Good (stock₀ : Stock) (t : Twin) (c : Call) : Prop :=
  Linked stock₀ (t.step c) ∧ Corresponds (t.step c) ∧ Alike t c

/-! ### Calls that are answered from the tables -/

section Duplicate

variable {newId : Uuid} {stamp : Stamp} {sagaId idem sku : String} {quantity : Int4}
  {positive : 0 < quantity.val} {build : ReserveOutcome → OutboxInsert}

theorem reserve_of_processed {u : Uuid} (hmem : t.db.Seen (idem, consumerReserve))
    (hu : uuidIn (cString sagaId) = some u) :
    InventoryService.reserve t.db newId stamp sagaId idem sku quantity build =
      .ok (if reservedId t.db u ≠ "" then ⟨.reserved, reservedId t.db u, true⟩
        else ⟨.insufficientStock, "", true⟩, t.db) := by
  by_cases hid : reservedId t.db u = "" <;>
    simp [InventoryService.reserve, Db.markProcessed_eq_none.mpr hmem, hu, hid]

theorem reservedId_of_row {u : Uuid} {r : Reservation}
    (hr : t.db.reservations.find? u = some r) (hst : r.status = .reserved) :
    reservedId t.db u = uuidOut r.id := by
  simp [reservedId, hr, hst]

/-- A duplicate leaves the twin as it is. -/
theorem step_of_duplicate (hkey : processedKey (idem, consumerReserve) ∈ t.fake.processed)
    (hmem : t.db.Seen (idem, consumerReserve)) :
    t.step (.reserve newId stamp sagaId idem sku quantity positive build) = t := by
  have hfake : (t.fake.reserve sagaId idem sku quantity build).2 = t.fake := by
    simp only [FakeRepository.reserve, hkey, if_true]
    split
    · split_ifs <;> rfl
    · rfl
  have hdb : (Call.reserve newId stamp sagaId idem sku quantity positive build).exec t.db = t.db ∧
      (Call.reserve newId stamp sagaId idem sku quantity positive build).granted t.db = [] := by
    cases hu : uuidIn (cString sagaId) with
    | none =>
      simp [Call.exec, Call.granted, InventoryService.reserve, Db.markProcessed_eq_none.mpr hmem,
        hu, committed]
    | some u =>
      simp only [Call.exec, Call.granted, reserve_of_processed hmem hu, committed, true_and]
      split_ifs <;> simp_all
  rw [step, Call.onFake, hfake, hdb.1, hdb.2, List.append_nil]

theorem alike_of_duplicate (h : Corresponds t)
    (hkey : processedKey (idem, consumerReserve) ∈ t.fake.processed)
    (hmem : t.db.Seen (idem, consumerReserve)) (hmatch : ¬Unmatched t sagaId) :
    Alike t (.reserve newId stamp sagaId idem sku quantity positive build) := by
  obtain ⟨u, hu⟩ := Option.ne_none_iff_exists'.mp fun hnone => hmatch (Or.inl hnone)
  refine ⟨_, reserve_of_processed hmem hu, ?_⟩
  rw [step_of_duplicate hkey hmem]
  simp only [FakeRepository.reserve, hkey, if_true, SameEvents]
  cases hx : t.fake.reservations sagaId with
  | none =>
    simp [reservedId_eq_empty (not_reserved_of_none hmatch hu hx), SameId]
  | some x =>
    obtain ⟨r, hr, hm⟩ := h.row hx hu
    by_cases hst : r.status = .reserved
    · simp [hm.state, hst, reservedId_of_row hr hst, uuidOut_ne_empty, hm.sameId]
    · simp [hm.state, hst, reservedId_eq_empty (mt (reserved_iff hr).mp hst), SameId]

end Duplicate

/-! ### Calls with a new key -/

theorem inserts_insertOutbox {stamp : Stamp} {db db' : Db} {ob : OutboxInsert}
    (h : insertOutbox stamp db.outbox ob = .ok db'.outbox) : db'.inserts = db.inserts ++ [ob] := by
  rw [Db.inserts, (insertOutbox_eq_ok.mp h).2, List.map_append]
  rfl

/-- An event that is kept is inserted as it is. -/
theorem Kept.exists_insertOutbox {stamp : Stamp} {db : Db} {ob : OutboxInsert} (h : Kept ob)
    (hfree : db.outbox.find? stamp.rowId = none) : ∃ outbox,
      db.insertOutbox stamp ob = .ok outbox ∧ insertOutbox stamp db.outbox ob = .ok outbox := by
  obtain ⟨outbox, hb⟩ := Db.exists_insertOutbox hfree h.1
  have hout := (Db.insertOutbox_eq_ok.mp hb).2
  rw [h.2] at hout
  exact ⟨outbox, hb, hout⟩

/-- Where both enqueue the event of the call, it is kept. -/
theorem kept_of_sameEvents {α : Type} {build : α → OutboxInsert} {x : α × FakeRepository}
    {outcome : α} {db' : Db} {stamp : Stamp} (htext : (build outcome).payload.holdsNul = false)
    (h : insertOutbox stamp t.db.outbox (build outcome).cStrings = .ok db'.outbox)
    (hsame : SameEvents build t x (outcome, db')) : Kept (build outcome) := by
  have hins := inserts_insertOutbox h
  obtain ⟨-, hnone⟩ | ⟨-, hsame⟩ := hsame
  · simp [hins] at hnone
  · rw [hins, List.append_cancel_left_eq, List.cons.injEq] at hsame
    exact ⟨htext, hsame.1⟩

section Reserve

variable {newId : Uuid} {stamp : Stamp} {sagaId idem sku : String} {quantity : Int4}
  {positive : 0 < quantity.val} {build : ReserveOutcome → OutboxInsert}

theorem step_reserve (positive : 0 < quantity.val) {x : ReserveOutcome × FakeRepository}
    {y : ReserveOutcome × Db}
    (hx : t.fake.reserve sagaId idem sku quantity build = x)
    (hy : InventoryService.reserve t.db newId stamp sagaId idem sku quantity build = .ok y) :
    t.step (.reserve newId stamp sagaId idem sku quantity positive build) =
      ⟨x.2, y.2, t.ids ++ if y.1.status = .reserved ∧ y.1.duplicate = false then
        (((uuidIn (cString sagaId)).bind y.2.reservations.find?).map Reservation.id).toList
      else []⟩ := by
  simp [step, Call.onFake, Call.exec, Call.granted, hx, hy, committed]

/-- Where one finds enough, and the SKU is not cut, both do. -/
theorem Sufficient.enough (h : Sufficient t sku quantity) (hsku : cString sku = sku) :
    quantity.val ≤ InventoryService.available t.db.stock sku := by
  obtain hraw | hcut := h.2
  · exact hraw
  · rwa [hsku] at hcut

/-- A refusal adds the key and the event to both. -/
theorem good_of_refused (hlinked : Linked stock₀ t) (h : Corresponds t)
    (hfree : t.db.outbox.find? stamp.rowId = none)
    (hfresh : ¬t.db.Seen (idem, consumerReserve))
    (hkey : processedKey (idem, consumerReserve) ∉ t.fake.processed)
    (hlack : ¬Sufficient t sku quantity) (hkept : Kept (build ⟨.insufficientStock, "", false⟩)) :
    Good stock₀ t (.reserve newId stamp sagaId idem sku quantity positive build) := by
  obtain ⟨hlack', hlackDb⟩ :
      (isPoisonSku sku || t.fake.available sku < quantity.val) = true ∧
        (isPoisonSku sku || InventoryService.available t.db.stock (cString sku) < quantity.val) =
          true := by
    rw [h.available]
    unfold Sufficient at hlack
    cases hpoison : isPoisonSku sku with
    | true => simp
    | false => simpa [hpoison, not_or] using hlack
  obtain ⟨outbox, hb, hout⟩ := hkept.exists_insertOutbox hfree
  have hy : InventoryService.reserve t.db newId stamp sagaId idem sku quantity build =
      .ok (⟨.insufficientStock, "", false⟩, { t.db with
        processed := (cString idem, consumerReserve) :: t.db.processed, outbox := outbox }) := by
    simp only [InventoryService.reserve, Db.markProcessed_eq_some.mpr ⟨hfresh, rfl⟩, hlackDb,
      if_true, hb, cString_consumerReserve]
  have hx : t.fake.reserve sagaId idem sku quantity build =
      (⟨.insufficientStock, "", false⟩, { t.fake with
        processed := processedKey (idem, consumerReserve) :: t.fake.processed
        emitted := t.fake.emitted ++ [build ⟨.insufficientStock, "", false⟩] }) := by
    simp only [FakeRepository.reserve, hkey, if_false, hlack', if_true]
  have hstep := step_reserve positive hx hy
  rw [if_neg (by simp), List.append_nil] at hstep
  refine ⟨?_, ?_, _, hy, ?_⟩
  · rw [hstep]
    exact hlinked.congr rfl rfl rfl rfl rfl
  · rw [hstep]
    exact h.congr rfl rfl rfl rfl rfl rfl
  · rw [hx]
    exact ⟨rfl, rfl, Or.inl ⟨rfl, rfl⟩, Or.inr ⟨rfl, inserts_insertOutbox hout⟩⟩

/-- The correspondence after a grant for a saga that had no row. -/
theorem corresponds_of_granted (h : Corresponds t) {u : Uuid} {ob : OutboxInsert} {db' : Db}
    {f' : FakeRepository} (hnext : t.fake.nextId = t.ids.length) (hnew : newId ∉ t.ids)
    (hu : uuidIn (cString sagaId) = some u) (hnone : t.db.reservations.find? u = none)
    (hrow : (t.db.stock.find? sku).isSome)
    (ht : Takes t.db newId stamp u idem sku quantity ob db')
    (havail : f'.available = Function.update t.fake.available sku
      (t.fake.available sku - quantity.val))
    (hunits : f'.reservedUnits = Function.update t.fake.reservedUnits sku
      (t.fake.reservedUnits sku + quantity.val))
    (hfake : f'.reservations = Function.update t.fake.reservations sagaId
      (some ⟨fakeId t.fake.nextId, sku, quantity.val, .reserved⟩)) :
    Corresponds ⟨f', db', t.ids ++ [newId]⟩ := by
  have hmatch : Matches (t.ids ++ [newId]) ⟨fakeId t.fake.nextId, sku, quantity.val, .reserved⟩
      ⟨newId, u, sku, quantity, .reserved⟩ :=
    ⟨⟨t.ids.length, by simp, by rw [hnext]⟩, rfl, rfl, rfl⟩
  refine h.update (moved_of_moveStock ht.stock) hrow havail hunits ?_ (fun hm => hm.append _) hu
    (fun _ => h.ne_of_none hnone) hmatch hfake fun v => ?_
  · rw [List.nodup_append]
    refine ⟨h.ids, List.nodup_singleton _, fun i hi j hj hij => hnew ?_⟩
    rw [← List.mem_singleton.mp hj, ← hij]
    exact hi
  · rw [ht.reservations]
    exact find?_upsertReservation (r := ⟨newId, u, sku, quantity, .reserved⟩) hnone v

theorem linked_of_granted (hlinked : Linked stock₀ t) (h : Corresponds t) {u : Uuid}
    {ob : OutboxInsert} {db' : Db} {f' : FakeRepository} (hq : 0 < quantity.val)
    (hu : uuidIn (cString sagaId) = some u) (hnone : t.db.reservations.find? u = none)
    (ht : Takes t.db newId stamp u idem sku quantity ob db')
    (hnext : f'.nextId = t.fake.nextId + 1) {x : FakeReservation}
    (hfake : f'.reservations = Function.update t.fake.reservations sagaId (some x)) :
    Linked stock₀ ⟨f', db', t.ids ++ [newId]⟩ := by
  have hins : t.db.reservations.insert ⟨newId, u, sku, quantity, .reserved⟩ =
      some db'.reservations := by
    rw [ht.reservations]
    obtain ⟨hsome, -⟩ | ⟨-, hup⟩ :=
      upsertReservation_cases t.db.reservations ⟨newId, u, sku, quantity, .reserved⟩
    · simp [hnone] at hsome
    · exact hup
  have hrows := (Table.insert_eq_some.mp hins).2
  refine ⟨?_, fun i hi => ?_, fun s s' hs hs' heq => ?_, ?_⟩
  · rw [hnext, hlinked.nextId, List.length_append, List.length_singleton]
  · rw [hrows]
    obtain hi | hi := List.mem_append.mp hi
    · obtain ⟨r, hr, hri⟩ := hlinked.owned i hi
      exact ⟨r, List.mem_append_left _ hr, hri⟩
    · exact ⟨_, List.mem_append_right _ (List.mem_singleton_self _),
        (List.mem_singleton.mp hi).symm⟩
  · simp only [hfake, Function.update_apply] at hs hs'
    split_ifs at hs hs' with h₁ h₂ h₂
    · rw [h₁, h₂]
    · exact absurd (heq.symm.trans (h₁ ▸ hu)) (h.ne_of_none hnone hs')
    · exact absurd (heq.trans (h₂ ▸ hu)) (h.ne_of_none hnone hs)
    · exact hlinked.spelled s s' hs hs' heq
  · exact hlinked.sound.takes ht (Or.inl hq)

/-- A first reservation of a saga is granted by both. -/
theorem good_of_granted (hlinked : Linked stock₀ t) (h : Corresponds t)
    (h₀ : ∀ sku, InventoryService.reserved stock₀ sku = 0)
    (hfree : t.db.outbox.find? stamp.rowId = none)
    (hnew : ∀ r ∈ t.db.reservations.rows, r.id ≠ newId)
    (hfresh : ¬t.db.Seen (idem, consumerReserve))
    (hkey : processedKey (idem, consumerReserve) ∉ t.fake.processed)
    (hclean : isPoisonSku sku = false) (henough : quantity.val ≤
      InventoryService.available t.db.stock sku) (hsku : cString sku = sku) {u : Uuid}
    (hu : uuidIn (cString sagaId) = some u) (hnone : t.db.reservations.find? u = none)
    (hkept : Kept (build ⟨.reserved, uuidOut newId, false⟩)) :
    Good stock₀ t (.reserve newId stamp sagaId idem sku quantity positive build) := by
  have hlack : ¬(isPoisonSku sku || t.fake.available sku < quantity.val) = true := by
    simpa [hclean, h.available] using henough
  have hlackDb := hlack
  rw [h.available] at hlackDb
  obtain ⟨stock, hmove⟩ := hlinked.sound.exists_moveStock_take h₀ positive henough
  obtain ⟨reservations, hins⟩ := Table.exists_insert (t := t.db.reservations)
    (r := ⟨newId, u, sku, quantity, .reserved⟩) hnone
  have hup : upsertReservation t.db.reservations ⟨newId, u, sku, quantity, .reserved⟩ =
      (newId, reservations) := by
    simp only [upsertReservation, hins]
  obtain ⟨outbox, hb, hout⟩ := hkept.exists_insertOutbox hfree
  have hy : InventoryService.reserve t.db newId stamp sagaId idem sku quantity build =
      .ok (⟨.reserved, uuidOut newId, false⟩, ⟨stock, reservations,
        (cString idem, consumerReserve) :: t.db.processed, outbox⟩) := by
    simp only [InventoryService.reserve, Db.markProcessed_eq_some.mpr ⟨hfresh, rfl⟩, hsku, hlackDb,
      Bool.false_eq_true, if_false, hmove, hu, hup, hb, cString_consumerReserve]
  have ht : Takes t.db newId stamp u (cString idem) sku quantity
      (build ⟨.reserved, uuidOut newId, false⟩)
      ⟨stock, reservations, (cString idem, consumerReserve) :: t.db.processed, outbox⟩ :=
    ⟨by simpa [Db.Seen] using hfresh, henough, hmove, by rw [hup], rfl, hout⟩
  have hx : t.fake.reserve sagaId idem sku quantity build =
      (⟨.reserved, fakeId t.fake.nextId, false⟩,
        { available := Function.update t.fake.available sku (t.fake.available sku - quantity.val)
          reservedUnits :=
            Function.update t.fake.reservedUnits sku (t.fake.reservedUnits sku + quantity.val)
          reservations := Function.update t.fake.reservations sagaId
            (some ⟨fakeId t.fake.nextId, sku, quantity.val, .reserved⟩)
          processed := processedKey (idem, consumerReserve) :: t.fake.processed
          emitted := t.fake.emitted ++ [build ⟨.reserved, fakeId t.fake.nextId, false⟩]
          nextId := t.fake.nextId + 1 }) := by
    simp only [FakeRepository.reserve, hkey, hlack, Bool.false_eq_true, if_false]
  have hstep := step_reserve positive hx hy
  rw [if_pos ⟨rfl, rfl⟩, hu, Option.bind_some, Table.find?_of_insert hins, if_pos rfl] at hstep
  have hrow := Sound.isSome_of_takes ht (Or.inl positive)
  have hnotin : newId ∉ t.ids := fun hmem => by
    obtain ⟨r, hr, hri⟩ := hlinked.owned newId hmem
    exact hnew r hr hri
  refine ⟨?_, ?_, _, hy, ?_⟩
  · rw [hstep]
    exact linked_of_granted hlinked h positive hu hnone ht rfl rfl
  · rw [hstep]
    exact corresponds_of_granted h hlinked.nextId hnotin hu hnone hrow ht rfl rfl rfl
  · rw [hx, hstep]
    refine ⟨rfl, rfl, Or.inr ⟨t.ids.length, newId, by simp, ?_, rfl⟩,
      Or.inr ⟨rfl, inserts_insertOutbox hout⟩⟩
    rw [hlinked.nextId]

/-- A reservation that does not diverge is alike. -/
theorem good_reserve (hlinked : Linked stock₀ t) (h : Corresponds t)
    (h₀ : ∀ sku, InventoryService.reserved stock₀ sku = 0)
    (hdraws : Fresh t (.reserve newId stamp sagaId idem sku quantity positive build))
    (hd : ¬Diverges t (.reserve newId stamp sagaId idem sku quantity positive build)) :
    Good stock₀ t (.reserve newId stamp sagaId idem sku quantity positive build) := by
  obtain ⟨hcollide, hdup, hgrant⟩ : ¬_ ∧ ¬_ ∧ ¬_ := by simpa only [Diverges, not_or] using hd
  have hkey := not_not.mp hcollide
  by_cases hmem : t.db.Seen (idem, consumerReserve)
  · rw [Good, step_of_duplicate (hkey.mpr hmem) hmem]
    exact ⟨hlinked, h, alike_of_duplicate h (hkey.mpr hmem) hmem fun hun => hdup ⟨hmem, hun⟩⟩
  have hgrant := fun hout => hgrant ⟨hmem, hout⟩
  by_cases hg : Sufficient t sku quantity
  · rw [if_pos hg] at hgrant
    obtain ⟨hsku, hsaga, hrow, hkept⟩ := by simpa only [imp_false, not_or] using hgrant
    obtain ⟨u, hu⟩ := Option.ne_none_iff_exists'.mp hsaga
    have hnone : t.db.reservations.find? u = none := by
      by_contra hsome
      exact hrow ⟨u, hu, hsome⟩
    exact good_of_granted hlinked h h₀ hdraws.1 hdraws.2 hmem (mt hkey.mp hmem) hg.1
      (hg.enough (not_not.mp hsku)) (not_not.mp hsku) hu hnone (not_not.mp hkept)
  · rw [if_neg hg] at hgrant
    exact good_of_refused hlinked h hdraws.1 hmem (mt hkey.mp hmem) hg (not_not.mp hgrant)

theorem duplicate_fakeReserve (f : FakeRepository) :
    (f.reserve sagaId idem sku quantity build).1.duplicate = true ↔
      processedKey (idem, consumerReserve) ∈ f.processed := by
  unfold FakeRepository.reserve
  dsimp only
  split_ifs with hkey
  · refine iff_of_true ?_ hkey
    split
    · split_ifs <;> rfl
    · rfl
  · exact iff_of_false (by simp) hkey
  · exact iff_of_false (by simp) hkey

theorem duplicate_reserve {db db' : Db} {outcome : ReserveOutcome}
    (h : InventoryService.reserve db newId stamp sagaId idem sku quantity build =
      .ok (outcome, db')) : outcome.duplicate = true ↔ db.Seen (idem, consumerReserve) := by
  rw [Db.Seen, cString_consumerReserve]
  obtain ⟨-, hdup, hmem⟩ | ⟨-, ⟨rfl, -, href⟩ | ⟨-, hdup, -, u, -, -, ht⟩⟩ := reserve_cases h
  · exact iff_of_true hdup hmem
  · exact iff_of_false (by simp) href.fresh
  · exact iff_of_false (by simp [hdup]) ht.fresh

theorem fakeReserve_cases {f : FakeRepository}
    (hkey : processedKey (idem, consumerReserve) ∉ f.processed) (sagaId sku : String)
    (quantity : Int4) (build : ReserveOutcome → OutboxInsert) :
    ((f.reserve sagaId idem sku quantity build).1.status = .insufficientStock ∧
        (isPoisonSku sku = true ∨ f.available sku < quantity.val)) ∨
      ((f.reserve sagaId idem sku quantity build).1.status = .reserved ∧
        (f.reserve sagaId idem sku quantity build).2.available =
          Function.update f.available sku (f.available sku - quantity.val)) := by
  unfold FakeRepository.reserve
  dsimp only
  rw [if_neg hkey]
  split_ifs with hlack
  · exact Or.inl ⟨rfl, by simpa using hlack⟩
  · exact Or.inr ⟨rfl, rfl⟩

/-- A SKU that the database cuts is granted by one of the two, or taken of different SKUs. -/
theorem cString_eq_of_alike (h : Corresponds t)
    (h' : Corresponds (t.step (.reserve newId stamp sagaId idem sku quantity positive build)))
    (halike : Alike t (.reserve newId stamp sagaId idem sku quantity positive build))
    (hkey : processedKey (idem, consumerReserve) ∉ t.fake.processed)
    (hg : Sufficient t sku quantity) : cString sku = sku := by
  by_contra hsku
  obtain ⟨⟨o, db'⟩, hy, hstatus, hduplicate, -⟩ := halike
  obtain ⟨hfst, hlackFake⟩ | ⟨hfst, hmoved⟩ :=
    fakeReserve_cases hkey sagaId sku quantity build
  all_goals
    obtain ⟨-, hdup, -⟩ | ⟨-, ⟨rfl, hlack, -⟩ | ⟨hst, -, -, u, -, -, ht⟩⟩ := reserve_cases hy
  · exact hkey ((duplicate_fakeReserve t.fake).mp (hduplicate.trans hdup))
  · -- neither has enough
    simp only [hg.1, Bool.false_eq_true, false_or, h.available] at hlack hlackFake
    obtain hraw | hcut := hg.2 <;> omega
  · cases hfst.symm.trans (hstatus.trans hst)
  · exact hkey ((duplicate_fakeReserve t.fake).mp (hduplicate.trans hdup))
  · cases hfst.symm.trans hstatus
  · -- the counts of the SKU as it is called move in the fake alone
    have havail := h'.available sku
    rw [step_reserve positive rfl hy] at havail
    dsimp only at havail
    rw [hmoved, Function.update_self, h.available, (moved_of_moveStock ht.stock).available,
      if_neg (fun hs => hsku hs.1.symm)] at havail
    omega

/-- A grant that is alike is for a saga that has no row, and its event is kept. -/
theorem first_of_alike (h : Corresponds t)
    (h' : Corresponds (t.step (.reserve newId stamp sagaId idem sku quantity positive build)))
    (halike : Alike t (.reserve newId stamp sagaId idem sku quantity positive build))
    (hfresh : ¬t.db.Seen (idem, consumerReserve)) (hclean : isPoisonSku sku = false)
    (henough : quantity.val ≤ InventoryService.available t.db.stock (cString sku)) :
    ∃ u, uuidIn (cString sagaId) = some u ∧ t.db.reservations.find? u = none ∧
      Kept (build ⟨.reserved, uuidOut newId, false⟩) := by
  obtain ⟨⟨o, db'⟩, hy, -, -, -, hevents⟩ := halike
  obtain ⟨-, hdup, -⟩ | ⟨htext, ⟨-, hlack, -⟩ | ⟨hst, hdup, -, u, hu, hid, ht⟩⟩ := reserve_cases hy
  · exact absurd ((duplicate_reserve hy).mp hdup) hfresh
  · obtain hpoison | hlack := hlack
    · simp [hclean] at hpoison
    · omega
  have hnone : t.db.reservations.find? u = none := by
    -- otherwise the row of the saga is kept, and its id is in the renaming a second time
    by_contra hsome
    obtain ⟨r, hr⟩ := Option.ne_none_iff_exists'.mp hsome
    obtain ⟨s, x, -, -, hm⟩ := h.ofDb u r hr
    obtain ⟨n, hn, -⟩ := hm.id
    have hkept := find?_upsertReservation_of_some hr ⟨newId, u, cString sku, quantity, .reserved⟩
    rw [← ht.reservations] at hkept
    have hids := h'.ids
    rw [step_reserve positive rfl hy, if_pos ⟨hst, hdup⟩, hu, Option.bind_some, hkept] at hids
    exact (List.nodup_append.mp hids).2.2 r.id (List.mem_of_getElem? hn) r.id (by simp) rfl
  refine ⟨u, hu, hnone, ?_⟩
  have hkept := kept_of_sameEvents htext ht.outbox hevents
  have hfst := id_upsertReservation t.db.reservations
    ⟨newId, u, cString sku, quantity, .reserved⟩
  rw [find?_upsertReservation hnone, if_pos rfl, Option.map_some, Option.some.injEq] at hfst
  rw [← hfst] at hid
  obtain ⟨status, reservationId, duplicate⟩ := o
  subst hst hdup hid
  exact hkept

/-- A refusal that is alike has its event kept. -/
theorem kept_of_alike (halike : Alike t
      (.reserve newId stamp sagaId idem sku quantity positive build))
    (hfresh : ¬t.db.Seen (idem, consumerReserve)) (hlack : ¬Sufficient t sku quantity) :
    Kept (build ⟨.insufficientStock, "", false⟩) := by
  obtain ⟨⟨o, db'⟩, hy, -, -, -, hevents⟩ := halike
  obtain ⟨-, hdup, -⟩ | ⟨htext, ⟨rfl, -, href⟩ | ⟨-, -, hclean, u, -, -, ht⟩⟩ := reserve_cases hy
  · exact absurd ((duplicate_reserve hy).mp hdup) hfresh
  · exact kept_of_sameEvents htext href.outbox hevents
  · exact absurd ⟨hclean, Or.inr ht.enough⟩ hlack

/-- A reservation that diverges is not alike, or takes the tables apart. -/
theorem bad_reserve (h : Corresponds t)
    (hd : Diverges t (.reserve newId stamp sagaId idem sku quantity positive build))
    (h' : Corresponds (t.step (.reserve newId stamp sagaId idem sku quantity positive build))) :
    ¬Alike t (.reserve newId stamp sagaId idem sku quantity positive build) := by
  intro halike
  have hkey : processedKey (idem, consumerReserve) ∈ t.fake.processed ↔
      t.db.Seen (idem, consumerReserve) := by
    obtain ⟨⟨o, db'⟩, hy, -, hduplicate, -⟩ := halike
    rw [← duplicate_reserve hy, ← hduplicate]
    exact (duplicate_fakeReserve t.fake).symm
  obtain hcollide | ⟨hmem, hun⟩ | ⟨hfresh, hout⟩ := hd
  · exact hcollide hkey
  · obtain ⟨⟨o, db'⟩, hy, hstatus, -⟩ := halike
    obtain hu | ⟨u, hu, hres, hx⟩ := hun
    · simp [InventoryService.reserve, Db.markProcessed_eq_none.mpr hmem, hu] at hy
    · obtain ⟨i, -, hid⟩ := reservedId_of_reserved hres
      rw [reserve_of_processed hmem hu, hid, if_pos (uuidOut_ne_empty i)] at hy
      cases hy
      simp [FakeRepository.reserve, hkey.mpr hmem, hx] at hstatus
  · split_ifs at hout with hg
    · have hsku := cString_eq_of_alike h h' halike (mt hkey.mp hfresh) hg
      have henough : quantity.val ≤ InventoryService.available t.db.stock (cString sku) := by
        rw [hsku]
        exact hg.enough hsku
      obtain ⟨u, hu, hnone, hkept⟩ := first_of_alike h h' halike hfresh hg.1 henough
      obtain hne | hsaga | ⟨v, hv, hsome⟩ | hlost := hout
      · exact hne hsku
      · cases hsaga.symm.trans hu
      · cases hu.symm.trans hv
        exact hsome hnone
      · exact hlost hkept
    · exact hout (kept_of_alike halike hfresh hg)

end Reserve

section Release

variable {stamp : Stamp} {sagaId reservationId idem consumer : String}
  {build : ReleaseOutcome → OutboxInsert}

theorem step_release {x : ReleaseOutcome × FakeRepository} {y : ReleaseOutcome × Db}
    (hx : t.fake.release sagaId reservationId idem consumer build = x)
    (hy : InventoryService.release t.db stamp sagaId reservationId idem consumer build = .ok y) :
    t.step (.release stamp sagaId reservationId idem consumer build) = ⟨x.2, y.2, t.ids⟩ := by
  simp [step, Call.onFake, Call.exec, Call.granted, hx, hy, committed]

/-- Where neither finds a RESERVED reservation, both add the key. -/
theorem good_of_nothing (hlinked : Linked stock₀ t) (h : Corresponds t)
    (hfresh : ¬t.db.Seen (idem, consumer))
    (hkey : processedKey (idem, consumer) ∉ t.fake.processed) {u : Uuid}
    (hu : uuidIn (cString sagaId) = some u) (hres : ¬Reserved t.db u)
    (hfake : ∀ x, t.fake.reservations sagaId = some x → x.state ≠ .reserved) :
    Good stock₀ t (.release stamp sagaId reservationId idem consumer build) := by
  have hy : InventoryService.release t.db stamp sagaId reservationId idem consumer build =
      .ok (⟨false, false⟩,
        { t.db with processed := (cString idem, cString consumer) :: t.db.processed }) := by
    cases hr : t.db.reservations.find? u with
    | none =>
      simp only [InventoryService.release, Db.markProcessed_eq_some.mpr ⟨hfresh, rfl⟩, hu, hr]
    | some r =>
      simp only [InventoryService.release, Db.markProcessed_eq_some.mpr ⟨hfresh, rfl⟩, hu, hr,
        if_pos (mt (reserved_iff hr).mpr hres)]
  have hx : t.fake.release sagaId reservationId idem consumer build =
      (⟨false, false⟩, { t.fake with
        processed := processedKey (idem, consumer) :: t.fake.processed }) := by
    cases hx : t.fake.reservations sagaId with
    | none => simp only [FakeRepository.release, hkey, if_false, hx]
    | some x => simp only [FakeRepository.release, hkey, if_false, hx, if_neg (hfake x hx)]
  have hstep := step_release hx hy
  refine ⟨?_, ?_, _, hy, ?_⟩
  · rw [hstep]
    exact hlinked.congr rfl rfl rfl rfl rfl
  · rw [hstep]
    exact h.congr rfl rfl rfl rfl rfl rfl
  · rw [hx]
    exact ⟨rfl, Or.inl ⟨rfl, rfl⟩⟩

/-- The correspondence after a release by both. -/
theorem corresponds_of_released (hlinked : Linked stock₀ t) (h : Corresponds t) {u : Uuid}
    {r : Reservation} {x : FakeReservation} {ob : OutboxInsert} {db' : Db} {f' : FakeRepository}
    (hu : uuidIn (cString sagaId) = some u) (hx : t.fake.reservations sagaId = some x)
    (hm : Matches t.ids x r) (hr : Releases t.db stamp u r idem consumer ob db')
    (havail : f'.available = Function.update t.fake.available x.sku
      (t.fake.available x.sku + x.quantity))
    (hunits : f'.reservedUnits = Function.update t.fake.reservedUnits x.sku
      (t.fake.reservedUnits x.sku - x.quantity))
    (hfake : f'.reservations = Function.update t.fake.reservations sagaId
      (some { x with state := .released })) :
    Corresponds ⟨f', db', t.ids⟩ := by
  have hrow := hlinked.sound.backed r (Table.find?_eq_some.mp hr.row).1
  have hmatch : Matches t.ids { x with state := .released } { r with status := .released } :=
    ⟨hm.id, hm.sku, hm.quantity, rfl⟩
  refine h.update (moved_of_moveStock hr.stock) hrow ?_ ?_ h.ids id hu (fun {s} hs hknown hsu => ?_)
    hmatch hfake fun v => ?_
  · rw [havail, hm.sku, hm.quantity, sub_neg_eq_add]
  · rw [hunits, hm.sku, hm.quantity, sub_eq_add_neg]
  · exact hs (hlinked.spelled s sagaId hknown (by simp [hx]) (hsu.trans hu.symm))
  · rw [hr.reservations, find?_setReleased, hr.row]
    rfl

theorem linked_of_released (hlinked : Linked stock₀ t) {u : Uuid} {r : Reservation}
    {x : FakeReservation} {ob : OutboxInsert} {db' : Db} {f' : FakeRepository}
    (hx : t.fake.reservations sagaId ≠ none) (hr : Releases t.db stamp u r idem consumer ob db')
    (hnext : f'.nextId = t.fake.nextId)
    (hfake : f'.reservations = Function.update t.fake.reservations sagaId (some x)) :
    Linked stock₀ ⟨f', db', t.ids⟩ := by
  have hnone : ∀ s, f'.reservations s ≠ none → t.fake.reservations s ≠ none := by
    intro s hs
    simp only [hfake, Function.update_apply] at hs
    split_ifs at hs with heq
    · rw [heq]
      exact hx
    · exact hs
  refine ⟨hnext.trans hlinked.nextId, fun i hi => ?_,
    fun s s' hs hs' heq => hlinked.spelled s s' (hnone s hs) (hnone s' hs') heq,
    hlinked.sound.releases hr⟩
  obtain ⟨r', hr', rfl⟩ := hlinked.owned i hi
  rw [hr.reservations, setReleased]
  by_cases hv : r'.sagaId = u
  · exact ⟨_, Table.mem_update.mpr (Or.inl ⟨r', hr', hv, rfl⟩), rfl⟩
  · exact ⟨r', Table.mem_update.mpr (Or.inr ⟨hr', hv⟩), rfl⟩

/-- What both have RESERVED is released by both. -/
theorem good_of_released (hlinked : Linked stock₀ t) (h : Corresponds t)
    (h₀ : ∀ sku, InventoryService.reserved stock₀ sku = 0)
    (hfree : t.db.outbox.find? stamp.rowId = none)
    (hfresh : ¬t.db.Seen (idem, consumer))
    (hkey : processedKey (idem, consumer) ∉ t.fake.processed) {u : Uuid} {r : Reservation}
    {x : FakeReservation} (hu : uuidIn (cString sagaId) = some u)
    (hx : t.fake.reservations sagaId = some x) (hrow : t.db.reservations.find? u = some r)
    (hm : Matches t.ids x r) (hst : r.status = .reserved) (hkept : Kept (build ⟨true, false⟩)) :
    Good stock₀ t (.release stamp sagaId reservationId idem consumer build) := by
  obtain ⟨stock, hmove⟩ := hlinked.sound.exists_moveStock_return h₀ hrow hst
  obtain ⟨outbox, hb, hout⟩ := hkept.exists_insertOutbox hfree
  have hy : InventoryService.release t.db stamp sagaId reservationId idem consumer build =
      .ok (⟨true, false⟩, ⟨stock, setReleased t.db.reservations u,
        (cString idem, cString consumer) :: t.db.processed, outbox⟩) := by
    simp only [InventoryService.release, Db.markProcessed_eq_some.mpr ⟨hfresh, rfl⟩, hu, hrow, hst,
      ne_eq, not_true_eq_false, if_false, hmove, hb]
  have hr : Releases t.db stamp u r (cString idem) (cString consumer) (build ⟨true, false⟩)
      ⟨stock, setReleased t.db.reservations u, (cString idem, cString consumer) ::
        t.db.processed, outbox⟩ := ⟨hfresh, hrow, hst, hmove, rfl, rfl, hout⟩
  have hfake : t.fake.release sagaId reservationId idem consumer build =
      (⟨true, false⟩, { t.fake with
        available := Function.update t.fake.available x.sku (t.fake.available x.sku + x.quantity)
        reservedUnits :=
          Function.update t.fake.reservedUnits x.sku (t.fake.reservedUnits x.sku - x.quantity)
        reservations := Function.update t.fake.reservations sagaId
          (some { x with state := .released })
        processed := processedKey (idem, consumer) :: t.fake.processed
        emitted := t.fake.emitted ++ [build ⟨true, false⟩] }) := by
    simp only [FakeRepository.release, hkey, if_false, hx, if_pos (hm.state.trans hst)]
  have hstep := step_release hfake hy
  refine ⟨?_, ?_, _, hy, ?_⟩
  · rw [hstep]
    exact linked_of_released hlinked (by simp [hx]) hr rfl rfl
  · rw [hstep]
    exact corresponds_of_released hlinked h hu hx hm hr rfl rfl rfl
  · rw [hfake]
    exact ⟨rfl, Or.inr ⟨rfl, inserts_insertOutbox hout⟩⟩

/-- A release that does not diverge is alike. -/
theorem good_release (hlinked : Linked stock₀ t) (h : Corresponds t)
    (h₀ : ∀ sku, InventoryService.reserved stock₀ sku = 0)
    (hdraws : Fresh t (.release stamp sagaId reservationId idem consumer build))
    (hd : ¬Diverges t (.release stamp sagaId reservationId idem consumer build)) :
    Good stock₀ t (.release stamp sagaId reservationId idem consumer build) := by
  obtain ⟨hcollide, hout⟩ : ¬_ ∧ ¬_ := by simpa only [Diverges, not_or] using hd
  have hkey := not_not.mp hcollide
  by_cases hmem : t.db.Seen (idem, consumer)
  · have hx : t.fake.release sagaId reservationId idem consumer build =
        (⟨false, true⟩, t.fake) := by
      simp only [FakeRepository.release, hkey.mpr hmem, if_true]
    have hy : InventoryService.release t.db stamp sagaId reservationId idem consumer build =
        .ok (⟨false, true⟩, t.db) := by
      simp only [InventoryService.release, Db.markProcessed_eq_none.mpr hmem]
    have hstep := step_release hx hy
    refine ⟨hstep ▸ hlinked, hstep ▸ h, _, hy, ?_⟩
    rw [hx]
    exact ⟨rfl, Or.inl ⟨rfl, rfl⟩⟩
  have hmatch : ¬Unmatched t sagaId := fun hu => hout ⟨hmem, Or.inl hu⟩
  obtain ⟨u, hu⟩ := Option.ne_none_iff_exists'.mp fun hnone => hmatch (Or.inl hnone)
  cases hx : t.fake.reservations sagaId with
  | none =>
    refine good_of_nothing hlinked h hmem (mt hkey.mp hmem) hu
      (not_reserved_of_none hmatch hu hx) fun x hx' => ?_
    cases hx.symm.trans hx'
  | some x =>
    obtain ⟨r, hr, hm⟩ := h.row hx hu
    by_cases hst : r.status = .reserved
    · refine good_of_released hlinked h h₀ hdraws hmem (mt hkey.mp hmem) hu hx hr hm hst ?_
      by_contra hkept
      exact hout ⟨hmem, Or.inr ⟨⟨u, hu, (reserved_iff hr).mpr hst⟩, hkept⟩⟩
    · refine good_of_nothing hlinked h hmem (mt hkey.mp hmem) hu (mt (reserved_iff hr).mp hst)
        fun x' hx' => ?_
      cases hx.symm.trans hx'
      rw [hm.state]
      exact hst

theorem duplicate_fakeRelease (f : FakeRepository) :
    (f.release sagaId reservationId idem consumer build).1.duplicate = true ↔
      processedKey (idem, consumer) ∈ f.processed := by
  unfold FakeRepository.release
  dsimp only
  split_ifs with hkey
  · exact iff_of_true rfl hkey
  · refine iff_of_false ?_ hkey
    split
    · simp
    · split_ifs <;> simp

theorem duplicate_release {db db' : Db} {outcome : ReleaseOutcome}
    (h : InventoryService.release db stamp sagaId reservationId idem consumer build =
      .ok (outcome, db')) : outcome.duplicate = true ↔ db.Seen (idem, consumer) := by
  obtain ⟨rfl, -, hmem⟩ | ⟨rfl, hfresh, -⟩ | ⟨rfl, -, u, r, -, hr⟩ := release_cases h
  · exact iff_of_true rfl hmem
  · exact iff_of_false (by simp) hfresh
  · exact iff_of_false (by simp) hr.fresh

/-- A release that diverges is not alike. -/
theorem bad_release (hd : Diverges t (.release stamp sagaId reservationId idem consumer build)) :
    ¬Alike t (.release stamp sagaId reservationId idem consumer build) := by
  rintro ⟨⟨o, db'⟩, hy, hsame, hevents⟩
  obtain hcollide | ⟨hfresh, hout⟩ := hd
  · refine hcollide ?_
    have hduplicate : (t.fake.release sagaId reservationId idem consumer build).1.duplicate =
        o.duplicate := by rw [hsame]
    rw [← duplicate_release hy, ← hduplicate]
    exact (duplicate_fakeRelease t.fake).symm
  obtain ⟨-, -, hmem⟩ | ⟨-, -, ⟨v, hv, hno⟩, -⟩ | ⟨rfl, htext, v, r, hv, hr⟩ := release_cases hy
  · exact hfresh hmem
  · have hno : ¬Reserved t.db v := fun hres => by
      obtain ⟨r, hr, hst⟩ := Option.map_eq_some_iff.mp hres
      exact hno r hr hst
    obtain (hu | ⟨u, hu, hres, -⟩) | ⟨⟨u, hu, hres⟩, -⟩ := hout
    · cases hu.symm.trans hv
    · cases hv.symm.trans hu
      exact hno hres
    · cases hv.symm.trans hu
      exact hno hres
  · obtain (hu | ⟨u, -, -, hx⟩) | ⟨-, hlost⟩ := hout
    · cases hu.symm.trans hv
    · -- the fake has nothing to release
      have hno : (t.fake.release sagaId reservationId idem consumer build).1.released =
          false := by
        simp only [FakeRepository.release, hx]
        split_ifs <;> rfl
      rw [hsame] at hno
      cases hno
    · exact hlost (kept_of_sameEvents htext hr.outbox hevents)

end Release

/-- Calls on the same stock, of which nothing is reserved, and with new draws : the fake and
the database are in corresponding states throughout and give the same outcomes and events
exactly if no call diverges. -/
theorem alike_throughout_iff (stock : Stock) (hstock : ∀ row ∈ stock.rows, row.reserved.val = 0)
    (calls : List Call) (hdraws : Along step Fresh (init stock) calls) :
    Throughout step Corresponds (init stock) calls ∧ Along step Alike (init stock) calls ↔
      Along step (fun t c => ¬Diverges t c) (init stock) calls := by
  have h₀ := reserved_eq_zero hstock
  have hsound : Sound (Db.ofStock stock).stock (.ofStock stock) :=
    Sound.init rfl fun sku => (h₀ sku).ge
  refine throughout_and_along_iff (I := Linked stock) (fun t c hlinked h hfresh hd => ?_)
    (fun t c _ h _ h' halike hd => ?_) ?_ ?_ hdraws
  · cases c with
    | reserve => exact good_reserve hlinked h h₀ hfresh hd
    | release => exact good_release hlinked h h₀ hfresh hd
  · cases c with
    | reserve => exact bad_reserve h hd h' halike
    | release => exact bad_release hd halike
  · exact ⟨rfl, fun i hi => absurd hi List.not_mem_nil, fun s s' hs => absurd rfl hs, hsound⟩
  · exact ⟨fun _ => rfl, fun sku => (h₀ sku).symm, List.nodup_nil, fun s x hx => (nomatch hx),
      fun u r hr => (nomatch hr)⟩

instance (t : Twin) : (c : Call) → Decidable (Fresh t c)
  | .reserve .. => inferInstanceAs (Decidable (_ ∧ _))
  | .release .. => inferInstanceAs (Decidable (_ = _))

instance (t : Twin) (k : String × String) : Decidable (Collides t k) :=
  inferInstanceAs (Decidable (¬(_ ↔ _)))

instance (ob : OutboxInsert) : Decidable (Kept ob) := inferInstanceAs (Decidable (_ ∧ _))

/-- A property of the saga that a text denotes can be decided from the text. -/
def decidableExistsSaga (sagaId : String) (p : Uuid → Prop) [DecidablePred p] :
    Decidable (∃ u ∈ uuidIn sagaId, p u) :=
  match h : uuidIn sagaId with
  | none => isFalse (by simp)
  | some u => decidable_of_iff (p u) (by simp)

instance (t : Twin) (sagaId : String) : Decidable (Unmatched t sagaId) :=
  have := decidableExistsSaga (cString sagaId) fun u =>
    Reserved t.db u ∧ t.fake.reservations sagaId = none
  inferInstanceAs (Decidable (_ ∨ _))

instance (t : Twin) : (c : Call) → Decidable (Diverges t c)
  | .reserve _ _ sagaId _ sku quantity _ _ =>
    have := decidableExistsSaga (cString sagaId) fun u => t.db.reservations.find? u ≠ none
    inferInstanceAs (Decidable (_ ∨ _ ∨ (_ ∧ if Sufficient t sku quantity then _ ∨ _ else _)))
  | .release _ sagaId _ _ _ _ =>
    have := decidableExistsSaga (cString sagaId) fun u => Reserved t.db u
    inferInstanceAs (Decidable (_ ∨ _))

/-- Two sagas reserve, and the first is released. -/
theorem alike_twoSagas :
    Throughout step Corresponds (init tenUnits) twoSagas ∧
      Along step Alike (init tenUnits) twoSagas :=
  (alike_throughout_iff tenUnits (by decide) twoSagas (by decide +kernel)).mpr (by decide +kernel)

/-- A saga reserves under two keys, and is released. -/
def reserveTwice : List Call :=
  [reserveCall 1 sagaA "k1" (.lit 2) two_pos, reserveCall 2 sagaA "k2" (.lit 3) three_pos,
    releaseCall 3 sagaA "k3"]

/-- The fake gives back the units of the second reservation, and the database those of the
first. -/
theorem not_alike_reserveTwice :
    (∀ row ∈ tenUnits.rows, row.reserved.val = 0) ∧
      Along step Fresh (init tenUnits) reserveTwice ∧
      (runFrom step (init tenUnits) reserveTwice).fake.available "SKU-1" = 8 ∧
      InventoryService.available (runFrom step (init tenUnits) reserveTwice).db.stock "SKU-1" =
        7 := by
  decide +kernel

end Twin

end Choreography.InventoryService
