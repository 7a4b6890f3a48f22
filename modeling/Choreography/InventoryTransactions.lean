import Choreography.InventoryStatements
import Choreography.Stock

/-!
# Concurrent transactions of Inventory

Any number of replicas of the service call `Database::reserve` and `Database::release` on one
database; within a replica a mutex keeps the calls apart. `At` says which statements of a call
are left, and what it holds then.

The statements that are not firm are the last of their transactions, and the calls are
serializable (`reserve_release_serializable`).

`reserve` locks the stock row first and then the reservation row of its saga, `release` the
other way round. They cannot wait for each other as long as a saga has one idempotency key
for its reservations (`reserve_release_acyclic`), and they can if it has two
(`reserve_release_deadlock`).
-/

set_option linter.unusedSectionVars false

namespace Choreography.InventoryService

open Prog RowLocks

/-! ## Where a call is -/

section

variable {s s' : Store Row.Value} {d : Writes Row.Value}

theorem outbox_of_touch {stamp : Stamp} {ob : OutboxInsert} {k : Row}
    {effect : k.Value → Effect (Except SqlError Unit) k.Value}
    (h : (Sql.insertOutbox stamp ob).touch = .row k effect) : k = .outbox stamp.rowId := by
  simp only [Sql.touch] at h
  split_ifs at h
  cases h
  rfl

theorem reservation_of_touch {newId : Uuid} {sagaId sku : String} {quantity : Int4} {k : Row}
    {effect : k.Value → Effect (Except SqlError String) k.Value}
    (h : (Sql.upsertReservation newId sagaId sku quantity).touch = .row k effect) :
    ∃ u, uuidIn sagaId = some u ∧ k = .reservation u := by
  simp only [Sql.touch] at h
  split at h
  · cases h
  next u hu =>
    cases h
    exact ⟨u, hu, rfl⟩

/-- A call that has inserted its key, which nobody else has, and has locked rows of its own
kind. -/
structure Holds (mark : String × String) (own : Row → Prop) (s : Store Row.Value)
    (d : Writes Row.Value) : Prop where
  written : d.written (.processed mark.1 mark.2) = some true
  fresh : s (.processed mark.1 mark.2) = false
  locks : ∀ k ∈ d.locks, k = .processed mark.1 mark.2 ∨ own k

namespace Holds

variable {mark : String × String} {own : Row → Prop}

theorem mem_locks (h : Holds mark own s d) : Row.processed mark.1 mark.2 ∈ d.locks :=
  d.covered _ _ h.written

theorem later (h : Holds mark own s d) (hlocked : ∀ k ∈ d.locks, s' k = s k) :
    Holds mark own s' d :=
  ⟨h.written, (hlocked _ h.mem_locks).trans h.fresh, h.locks⟩

theorem mono {own' : Row → Prop} (h : Holds mark own s d) (hown : ∀ k, own k → own' k) :
    Holds mark own' s d :=
  ⟨h.written, h.fresh, fun k hk => (h.locks k hk).imp_right (hown k)⟩

/-- A statement on a row of the call. -/
theorem record {A : Type} (h : Holds mark own s d) {k : Row} (e : Effect A k.Value)
    (hne : k ≠ .processed mark.1 mark.2) (hown : own k) : Holds mark own s (d.record k e) := by
  refine ⟨?_, h.fresh, fun k' hk' => ?_⟩
  · cases e with
    | look a => exact h.written
    | lock a => exact h.written
    | write a v => exact (Function.update_of_ne hne.symm _ _).trans h.written
  · rw [Writes.locks_record] at hk'
    split_ifs at hk'
    · obtain rfl | hk' := List.mem_cons.mp hk'
      · exact Or.inr hown
      · exact h.locks k' hk'
    · exact h.locks k' hk'

/-- A statement on a row of the call, or on none. -/
theorem answer (h : Holds mark own s d) {q : Sql}
    (hq : ∀ k effect, q.touch = .row k effect → k ≠ .processed mark.1 mark.2 ∧ own k) :
    Holds mark own s (postgres.answer s d q).2 := by
  unfold Rows.answer
  split
  · exact h
  next k effect htouch =>
    obtain ⟨hne, hown⟩ := hq k effect htouch
    exact h.record _ hne hown

/-- The first statement of a call. -/
theorem init {key consumer : String} (own : Row → Prop)
    (h : s (.processed key consumer) = false) :
    Holds (key, consumer) own s (Writes.empty.write (.processed key consumer) true) where
  written := Function.update_self _ _ _
  fresh := h
  locks _ hk := Or.inl (List.mem_singleton.mp hk)

theorem not_mem_locks (h : Holds mark (fun _ => False) s d) {k : Row}
    (hne : k ≠ .processed mark.1 mark.2) : k ∉ d.locks := fun hmem =>
  (h.locks k hmem).elim hne id

/-- A call that holds no more than its key sees what is committed. -/
theorem see_eq (h : Holds mark (fun _ => False) s d) {k : Row}
    (hne : k ≠ .processed mark.1 mark.2) : d.see s k = s k :=
  Writes.see_of_not_written (Writes.not_written (h.not_mem_locks hne))

theorem insertOutbox (h : Holds mark own s d) {stamp : Stamp} (hown : own (.outbox stamp.rowId))
    (ob : OutboxInsert) : Holds mark own s (postgres.answer s d (.insertOutbox stamp ob)).2 := by
  refine h.answer fun k effect htouch => ?_
  obtain rfl := outbox_of_touch htouch
  exact ⟨by simp, hown⟩

theorem upsertReservation (h : Holds mark own s d) {sagaId : String}
    (hown : ∀ u, uuidIn sagaId = some u → own (.reservation u)) (newId : Uuid) (sku : String)
    (quantity : Int4) :
    Holds mark own s (postgres.answer s d (.upsertReservation newId sagaId sku quantity)).2 := by
  refine h.answer fun k effect htouch => ?_
  obtain ⟨u, hu, rfl⟩ := reservation_of_touch htouch
  exact ⟨by simp, hown u hu⟩

end Holds

/-- The INSERT of the key : the call goes on with nothing, or with its key. -/
theorem answer_markProcessed (s : Store Row.Value) (key consumer : String) :
    (s (.processed key consumer) = true ∧
      postgres.answer s Writes.empty (.markProcessed key consumer) = (false, Writes.empty)) ∨
    (s (.processed key consumer) = false ∧
      postgres.answer s Writes.empty (.markProcessed key consumer) =
        (true, Writes.empty.write (.processed key consumer) true)) := by
  have hsee : (Writes.empty : Writes Row.Value).see s (.processed key consumer) =
      s (.processed key consumer) := rfl
  rw [Rows.answer_insert rfl, hsee]
  cases s (.processed key consumer) with
  | true => exact Or.inl ⟨rfl, rfl⟩
  | false => exact Or.inr ⟨rfl, rfl⟩

theorem answer_selectReservedId (s : Store Row.Value) (sagaId : String) :
    (postgres.answer s Writes.empty (.selectReservedId sagaId)).2 = Writes.empty := by
  simp only [Rows.answer, postgres, Sql.touch]
  split
  · rfl
  · next hrow => split at hrow <;> cases hrow; rfl

namespace ReserveTx

variable (t : ReserveTx)

abbrev mark : String × String := (cString t.idempotencyKey, consumerReserve)

/-- The rows that the call locks after its key. -/
def Own (k : Row) : Prop :=
  k = .stock (cString t.sku) ∨ (∃ u, uuidIn (cString t.sagaId) = some u ∧ k = .reservation u) ∨
    k = .outbox t.stamp.rowId

/-- The statements of the call that are left, with what it holds. -/
inductive At (s : Store Row.Value) : TxProg → Writes Row.Value → Prop
  | body : At s t.body Writes.empty
  | duplicate : At s t.duplicate Writes.empty
  | duplicated (b : Except SqlError Outcome) : At s (ret b) Writes.empty
  | decide {d : Writes Row.Value} (h : Holds t.mark (fun _ => False) s d) : At s t.decide d
  | take {d : Writes Row.Value} (h : Holds t.mark t.Own s d)
      (hstock : s (.stock (cString t.sku)) = none ∨ .stock (cString t.sku) ∈ d.locks) :
      At s t.take d
  | insert {d : Writes Row.Value} (h : Holds t.mark t.Own s d) : At s t.insert d
  | announce {d : Writes Row.Value} (h : Holds t.mark t.Own s d) (outcome : ReserveOutcome) :
      At s (t.announce outcome) d
  | done {d : Writes Row.Value} (h : Holds t.mark t.Own s d) (b : Except SqlError Outcome) :
      At s (ret b) d

variable {t}

theorem At.later {p : TxProg} (h : t.At s p d) (hlater : ∀ k : Row, k.Later (s k) (s' k))
    (hlocked : ∀ k ∈ d.locks, s' k = s k) : t.At s' p d := by
  cases h with
  | body => exact .body
  | duplicate => exact .duplicate
  | duplicated b => exact .duplicated b
  | decide h => exact .decide (h.later hlocked)
  | take h hstock =>
    refine .take (h.later hlocked) (hstock.imp_left fun hnone => ?_)
    have hsome : (s' (.stock (cString t.sku))).isSome = (s (.stock (cString t.sku))).isSome :=
      hlater (.stock (cString t.sku))
    simpa [hnone] using hsome
  | insert h => exact .insert (h.later hlocked)
  | announce h outcome => exact .announce (h.later hlocked) outcome
  | done h b => exact .done (h.later hlocked) b

/-- The SELECT FOR UPDATE locks the stock row, if there is one. -/
theorem holds_selectAvailable (h : Holds t.mark (fun _ => False) s d) :
    Holds t.mark t.Own s (postgres.answer s d (.selectAvailable (cString t.sku))).2 ∧
    (s (.stock (cString t.sku)) = none ∨ .stock (cString t.sku) ∈
      (postgres.answer s d (.selectAvailable (cString t.sku))).2.locks) := by
  have hown : Holds t.mark t.Own s d := h.mono fun _ => False.elim
  have hsee : d.see s (.stock (cString t.sku)) = s (.stock (cString t.sku)) := h.see_eq (by simp)
  simp only [Rows.answer, postgres, Sql.touch, hsee]
  cases hv : s (.stock (cString t.sku)) with
  | none => exact ⟨hown, Or.inl rfl⟩
  | some row =>
    exact ⟨hown.record (Effect.lock (some row.available)) (by simp) (Or.inl rfl),
      Or.inr List.mem_cons_self⟩

theorem At.answer {q : Sql} {k : q.Answer → TxProg} (h : t.At s (call q k) d) :
    t.At s (k (postgres.answer s d q).1) (postgres.answer s d q).2 := by
  generalize hp : call q k = p at h
  cases h with
  | body =>
    cases hp
    obtain ⟨-, hanswer⟩ | ⟨hfresh, hanswer⟩ :=
      answer_markProcessed s (cString t.idempotencyKey) consumerReserve <;> rw [hanswer]
    · exact .duplicate
    · exact .decide (.init _ hfresh)
  | duplicate =>
    cases hp
    rw [answer_selectReservedId]
    cases (postgres.answer s Writes.empty (.selectReservedId (cString t.sagaId))).1 with
    | error e => exact .duplicated _
    | ok id =>
      change t.At s (if id ≠ "" then ret _ else ret _) _
      split_ifs <;> exact .duplicated _
  | duplicated b => cases hp
  | decide h =>
    cases hp
    obtain ⟨hown, hstock⟩ := holds_selectAvailable h
    change t.At s (if _ then _ else _) _
    split_ifs
    · exact .announce hown _
    · exact .take hown hstock
  | take h hstock =>
    cases hp
    have hrecord : Holds t.mark t.Own s
        (postgres.answer s d (.updateStock (cString t.sku) t.quantity.val)).2 :=
      h.record _ (by simp) (Or.inl rfl)
    cases (postgres.answer s d (.updateStock (cString t.sku) t.quantity.val)).1 with
    | error e => exact .done hrecord _
    | ok _ => exact .insert hrecord
  | insert h =>
    cases hp
    have hrecord : Holds t.mark t.Own s (postgres.answer s d
        (.upsertReservation t.newId (cString t.sagaId) (cString t.sku) t.quantity)).2 :=
      h.upsertReservation (fun u hu => Or.inr (Or.inl ⟨u, hu, rfl⟩)) _ _ _
    cases (postgres.answer s d
      (.upsertReservation t.newId (cString t.sagaId) (cString t.sku) t.quantity)).1 with
    | error e => exact .done hrecord _
    | ok id => exact .announce hrecord _
  | announce h outcome =>
    cases hp
    have hrecord : Holds t.mark t.Own s
        (postgres.answer s d (.insertOutbox t.stamp (t.buildEvent outcome).cStrings)).2 :=
      h.insertOutbox (Or.inr (Or.inr rfl)) _
    cases (postgres.answer s d (.insertOutbox t.stamp (t.buildEvent outcome).cStrings)).1 with
    | error e => exact .done hrecord _
    | ok _ => exact .done hrecord _
  | done h b => cases hp

/-- What the call looks at without a lock is firm, or the last thing that it does. -/
theorem At.settled {q : Sql} {k : q.Answer → TxProg} (h : t.At s (call q k) d)
    (hfirm : ¬postgres.Firm s d q) :
    ∃ b, k (postgres.answer s d q).1 = ret b ∧
      (Tx.commits b = true → ∀ k' v, d.written k' = some v → postgres.Guarded k') := by
  generalize hp : call q k = p at h
  cases h with
  | body =>
    cases hp
    exact absurd (firm_markProcessed _ _) hfirm
  | duplicate =>
    cases hp
    have hwritten : ∀ k' v, (Writes.empty : Writes Row.Value).written k' = some v →
        postgres.Guarded k' := fun k' v hv => by cases hv
    cases (postgres.answer s Writes.empty (.selectReservedId (cString t.sagaId))).1 with
    | error e => exact ⟨_, rfl, fun _ => hwritten⟩
    | ok id =>
      refine ⟨if id ≠ "" then .ok (.reserve ⟨.reserved, id, true⟩)
        else .ok (.reserve ⟨.insufficientStock, "", true⟩), ?_, fun _ => hwritten⟩
      split_ifs with hid
      · exact if_pos hid
      · exact if_neg hid
  | duplicated b => cases hp
  | decide h =>
    cases hp
    exact absurd (firm_selectAvailable _) hfirm
  | take h hstock =>
    cases hp
    have herror := answer_updateStock_of_not_firm hfirm
    refine ⟨.error .outOfRange, ?_, fun hcommits => by cases hcommits⟩
    rw [herror]
    rfl
  | insert h =>
    cases hp
    exact absurd (firm_upsertReservation _ _ _ _) hfirm
  | announce h outcome =>
    cases hp
    exact absurd (firm_insertOutbox _ _) hfirm
  | done h b => cases hp

end ReserveTx

namespace ReleaseTx

variable (t : ReleaseTx)

abbrev mark : String × String := (cString t.idempotencyKey, cString t.consumer)

/-- The rows that the call locks after its key : the reservation row is there, since a release
inserts none. -/
def Own (s : Store Row.Value) (k : Row) : Prop :=
  (∃ u, k = .reservation u ∧ s (.reservation u) ≠ none) ∨ (∃ sku, k = .stock sku) ∨
    k = .outbox t.stamp.rowId

/-- The statements of the call that are left, with what it holds. -/
inductive At (s : Store Row.Value) : TxProg → Writes Row.Value → Prop
  | body : At s t.body Writes.empty
  | duplicated (b : Except SqlError Outcome) : At s (ret b) Writes.empty
  | find {d : Writes Row.Value} (h : Holds t.mark (fun _ => False) s d) : At s t.find d
  | giveBack {d : Writes Row.Value} (h : Holds t.mark (t.Own s) s d)
      (hstock : ∀ sku, .stock sku ∉ d.locks) (sku : String) (quantity : Int4) :
      At s (t.giveBack sku quantity) d
  | announce {d : Writes Row.Value} (h : Holds t.mark (t.Own s) s d) : At s t.announce d
  | done {d : Writes Row.Value} (h : Holds t.mark (t.Own s) s d) (b : Except SqlError Outcome) :
      At s (ret b) d

variable {t}

/-- The rows that the call has locked stay. -/
theorem Own.later (h : Holds t.mark (t.Own s) s d) (hlocked : ∀ k ∈ d.locks, s' k = s k) :
    Holds t.mark (t.Own s') s' d := by
  refine ⟨h.written, (hlocked _ h.mem_locks).trans h.fresh, fun k hk => ?_⟩
  refine (h.locks k hk).imp_right fun hown => ?_
  obtain ⟨u, rfl, hu⟩ | hown := hown
  · refine Or.inl ⟨u, rfl, ?_⟩
    rw [hlocked _ hk]
    exact hu
  · exact Or.inr hown

theorem At.later {p : TxProg} (h : t.At s p d) (hlocked : ∀ k ∈ d.locks, s' k = s k) :
    t.At s' p d := by
  cases h with
  | body => exact .body
  | duplicated b => exact .duplicated b
  | find h => exact .find (h.later hlocked)
  | giveBack h hstock sku quantity => exact .giveBack (Own.later h hlocked) hstock sku quantity
  | announce h => exact .announce (Own.later h hlocked)
  | done h b => exact .done (Own.later h hlocked) b

theorem At.answer {q : Sql} {k : q.Answer → TxProg} (h : t.At s (call q k) d) :
    t.At s (k (postgres.answer s d q).1) (postgres.answer s d q).2 := by
  generalize hp : call q k = p at h
  cases h with
  | body =>
    cases hp
    obtain ⟨-, hanswer⟩ | ⟨hfresh, hanswer⟩ :=
      answer_markProcessed s (cString t.idempotencyKey) (cString t.consumer) <;> rw [hanswer]
    · exact .duplicated _
    · exact .find (.init _ hfresh)
  | duplicated b => cases hp
  | find h =>
    cases hp
    have hown : Holds t.mark (t.Own s) s d := h.mono fun _ => False.elim
    cases hu : uuidIn (cString t.sagaId) with
    | none =>
      simp only [Rows.answer, postgres, Sql.touch, hu]
      exact .done hown _
    | some u =>
      have hsee : d.see s (.reservation u) = s (.reservation u) := h.see_eq (by simp)
      simp only [Rows.answer, postgres, Sql.touch, hu, hsee]
      cases hv : s (.reservation u) with
      | none => exact .done hown _
      | some r =>
        dsimp only
        split_ifs with hst
        · refine .giveBack (hown.record _ (by simp) (Or.inl ⟨u, rfl, by simp [hv]⟩)) ?_ _ _
          intro sku hmem
          obtain hk | hmem := List.mem_cons.mp hmem
          · cases hk
          · exact h.not_mem_locks (by simp) hmem
        · exact .done hown _
  | giveBack h hstock sku quantity =>
    cases hp
    have hrecord : Holds t.mark (t.Own s) s
        (postgres.answer s d (.updateStock sku (-quantity.val))).2 :=
      h.record _ (by simp) (Or.inr (Or.inl ⟨sku, rfl⟩))
    cases (postgres.answer s d (.updateStock sku (-quantity.val))).1 with
    | error e => exact .done hrecord _
    | ok _ => exact .announce hrecord
  | announce h =>
    cases hp
    have hrecord : Holds t.mark (t.Own s) s (postgres.answer s d
        (.insertOutbox t.stamp (t.buildEvent ⟨true, false⟩).cStrings)).2 :=
      h.insertOutbox (Or.inr (Or.inr rfl)) _
    cases (postgres.answer s d
      (.insertOutbox t.stamp (t.buildEvent ⟨true, false⟩).cStrings)).1 with
    | error e => exact .done hrecord _
    | ok _ => exact .done hrecord _
  | done h b => cases hp

theorem At.settled {q : Sql} {k : q.Answer → TxProg} (h : t.At s (call q k) d)
    (hfirm : ¬postgres.Firm s d q) :
    ∃ b, k (postgres.answer s d q).1 = ret b ∧
      (Tx.commits b = true → ∀ k' v, d.written k' = some v → postgres.Guarded k') := by
  generalize hp : call q k = p at h
  cases h with
  | body =>
    cases hp
    exact absurd (firm_markProcessed _ _) hfirm
  | duplicated b => cases hp
  | find h =>
    cases hp
    have hnone := answer_updateReleased_of_not_firm hfirm
    refine ⟨.ok (.release ⟨false, false⟩), ?_, fun _ k' v hwritten => ?_⟩
    · rw [hnone]
      rfl
    · obtain rfl | hk := h.locks k' (d.covered k' v hwritten)
      · exact guarded_processed _ _
      · exact hk.elim
  | giveBack h hstock sku quantity =>
    cases hp
    have herror := answer_updateStock_of_not_firm hfirm
    refine ⟨.error .outOfRange, ?_, fun hcommits => by cases hcommits⟩
    rw [herror]
    rfl
  | announce h =>
    cases hp
    exact absurd (firm_insertOutbox _ _) hfirm
  | done h b => cases hp

end ReleaseTx

end

/-- The statements of a call that are left, with what it holds. -/
def Tx.At (t : Tx) (s : Store Row.Value) (p : TxProg) (d : Writes Row.Value) : Prop :=
  match t with
  | .reserve t => t.At s p d
  | .release t => t.At s p d

/-! ## Any number of calls -/

section

variable {ι : Type} [Fintype ι] [DecidableEq ι]

/-- Where a call can be, with what stays true of the tables. -/
theorem upheld (txs : ι → Tx) {J : Store Row.Value → Prop}
    (hcommit : ∀ i s b d, J s → (txs i).At s (ret b) d → Tx.commits b = true →
      (∀ k : Row, k.Later (s k) (d.see s k)) → J (d.see s)) :
    postgres.engine.Upheld Tx.commits (fun i => (txs i).body) J fun i => (txs i).At where
  start i s := by
    cases h : txs i with
    | reserve t => exact .body
    | release t => exact .body
  answer i s q k d h := by
    cases ht : txs i with
    | reserve t =>
      rw [ht] at h
      exact ReserveTx.At.answer h
    | release t =>
      rw [ht] at h
      exact ReleaseTx.At.answer h
  commit i s p d d' h hfits hapart := by
    have hlocked := Rows.see_of_disjoint hapart s
    cases ht : txs i with
    | reserve t =>
      rw [ht] at h
      exact ReserveTx.At.later h hfits.later hlocked
    | release t =>
      rw [ht] at h
      exact ReleaseTx.At.later h hlocked
  keep i s b d hs hat hcommits hfits := hcommit i s b d hs hat hcommits hfits.later

theorem settled (txs : ι → Tx) (i : ι) : postgres.engine.Settled Tx.commits (txs i).body := by
  have h := upheld (J := fun _ => True) txs fun _ _ _ _ _ _ _ _ => trivial
  refine h.settled i fun s q k d hat hfirm => ?_
  cases ht : txs i with
  | reserve t =>
    rw [ht] at hat
    exact ReserveTx.At.settled hat hfirm
  | release t =>
    rw [ht] at hat
    exact ReleaseTx.At.settled hat hfirm

abbrev World (ι : Type) :=
  Sessions Sql.Answer (Store Row.Value) (Writes Row.Value) (Except SqlError Outcome) ι

/-- The replicas after some moves, from tables that nobody uses. -/
def world (txs : ι → Tx) (db : Db) (moves : List (Move ι)) : World ι :=
  runFrom (postgres.engine.step Tx.commits fun i => (txs i).body) (Sessions.init db.rows) moves

/-- In every interleaving, the calls that are over have returned what they return one after
the other, in some order, and once no transaction is open the tables are those after the
calls in that order. -/
theorem reserve_release_serializable (txs : ι → Tx) (db : Db) (moves : List (Move ι)) :
    ∃ order : List ι, order.Nodup ∧
      (∀ i r, (world txs db moves).session i = .ended r → i ∈ order) ∧
      (∀ pre i post, order = pre ++ i :: post →
        ((world txs db moves).session i).result =
          some ((txs i).exec (serial txs db pre)).1) ∧
      ((∀ i p d, (world txs db moves).session i ≠ .active p d) →
        (world txs db moves).store = (serial txs db order).rows) := by
  obtain ⟨order, early, h, -⟩ := postgres.engine.serialized_run Tx.commits
    (fun i => (txs i).body) (settled txs) db.rows moves
  refine ⟨order, h.nodup, fun i r hi => (h.placed i).mpr (Or.inl ⟨r, hi⟩),
    fun pre i post horder => ?_, fun hclosed => ?_⟩
  · have hresult := h.results pre i post horder
    rw [serial_rows, exec_body] at hresult
    exact hresult
  · rw [← serial_rows]
    exact h.store_of_closed hclosed

/-! ## Waiting -/

/-- The rows that a call can have locked after its key. -/
def Tx.Own (s : Store Row.Value) : Tx → Row → Prop
  | .reserve t => t.Own
  | .release t => t.Own s

def Tx.mark : Tx → String × String
  | .reserve t => t.mark
  | .release t => t.mark

/-- The id of the outbox row that a call inserts. -/
def Tx.rowId : Tx → Uuid
  | .reserve t => t.stamp.rowId
  | .release t => t.stamp.rowId

/-- A call holds nothing, or its key and rows of its own. -/
theorem Tx.At.holds {t : Tx} {s : Store Row.Value} {p : TxProg} {d : Writes Row.Value}
    (h : t.At s p d) : d = Writes.empty ∨ Holds t.mark (t.Own s) s d := by
  cases t with
  | reserve t =>
    cases h with
    | body => exact Or.inl rfl
    | duplicate => exact Or.inl rfl
    | duplicated b => exact Or.inl rfl
    | decide h => exact Or.inr (h.mono fun _ => False.elim)
    | take h _ => exact Or.inr h
    | insert h => exact Or.inr h
    | announce h _ => exact Or.inr h
    | done h _ => exact Or.inr h
  | release t =>
    cases h with
    | body => exact Or.inl rfl
    | duplicated b => exact Or.inl rfl
    | find h => exact Or.inr (h.mono fun _ => False.elim)
    | giveBack h _ _ _ => exact Or.inr h
    | announce h => exact Or.inr h
    | done h _ => exact Or.inr h

/-- A row other than its key that a call has locked is its own. -/
theorem Tx.At.own {t : Tx} {s : Store Row.Value} {p : TxProg} {d : Writes Row.Value}
    (h : t.At s p d) {k : Row} (hk : k ∈ d.locks)
    (hne : ∀ key consumer, k ≠ .processed key consumer) :
    Holds t.mark (t.Own s) s d ∧ t.Own s k := by
  obtain rfl | hholds := h.holds
  · exact absurd hk List.not_mem_nil
  · exact ⟨hholds, (hholds.locks k hk).resolve_left (hne _ _)⟩

/-- The outbox row that a call has inserted is its own. -/
theorem Tx.At.rowId_eq {t : Tx} {s : Store Row.Value} {p : TxProg} {d : Writes Row.Value}
    (h : t.At s p d) {id : Uuid} (hk : .outbox id ∈ d.locks) : t.rowId = id := by
  obtain ⟨-, hown⟩ := h.own hk (by simp)
  cases t with
  | reserve t =>
    obtain hk | ⟨u, -, hk⟩ | hk := hown
    · cases hk
    · cases hk
    · exact (Row.outbox.inj hk).symm
  | release t =>
    obtain ⟨u, hk, -⟩ | ⟨sku, hk⟩ | hk := hown
    · cases hk
    · cases hk
    · exact (Row.outbox.inj hk).symm

/-- Each saga has one idempotency key for its reservations : no two calls reserve for it with
different keys, and if it has a row, the key of the call is already there. -/
structure OneKey (txs : ι → Tx) (db : Db) : Prop where
  /-- `gen_random_uuid()` draws no id twice. -/
  distinct : ∀ i j, (txs i).rowId = (txs j).rowId → i = j
  calls : ∀ i j t t' u, txs i = .reserve t → txs j = .reserve t' →
    uuidIn (cString t.sagaId) = some u → uuidIn (cString t'.sagaId) = some u →
    cString t.idempotencyKey = cString t'.idempotencyKey
  reserved : ∀ i t u, txs i = .reserve t → uuidIn (cString t.sagaId) = some u →
    db.reservations.find? u ≠ none → (cString t.idempotencyKey, consumerReserve) ∈ db.processed

/-- A saga that a call reserves for has no row, or the key of the call is there. -/
def Unreserved (txs : ι → Tx) (s : Store Row.Value) : Prop :=
  ∀ i t u, txs i = .reserve t → uuidIn (cString t.sagaId) = some u →
    s (.reservation u) = none ∨ s (.processed (cString t.idempotencyKey) consumerReserve) = true

theorem OneKey.unreserved {txs : ι → Tx} {db : Db} (h : OneKey txs db) :
    Unreserved txs db.rows := by
  intro i t u ht hu
  by_cases hrow : db.reservations.find? u = none
  · exact Or.inl hrow
  · exact Or.inr (decide_eq_true (h.reserved i t u ht hu hrow))

theorem OneKey.commit {txs : ι → Tx} {db : Db} (h : OneKey txs db) (j : ι)
    (s : Store Row.Value) (b : Except SqlError Outcome) (d : Writes Row.Value)
    (hs : Unreserved txs s) (hat : (txs j).At s (ret b) d)
    (hlater : ∀ k : Row, k.Later (s k) (d.see s k)) : Unreserved txs (d.see s) := by
  intro i t u ht hu
  obtain hnone | hmark := hs i t u ht hu
  · cases hw : d.written (.reservation u) with
    | none => exact Or.inl ((Writes.see_of_not_written hw).trans hnone)
    | some v =>
      obtain ⟨hholds, hown⟩ := hat.own (d.covered _ _ hw) (by simp)
      cases hj : txs j with
      | reserve t' =>
        rw [hj] at hown hholds
        obtain hk | ⟨u', hu', hk⟩ | hk := hown
        · cases hk
        · cases hk
          -- a reservation of the saga itself has inserted the key as well
          refine Or.inr ?_
          rw [h.calls i j t t' u ht hj hu hu']
          exact Writes.see_of_written hholds.written
        · cases hk
      | release t' =>
        rw [hj] at hown
        obtain ⟨u', hk, hsome⟩ | ⟨sku, hk⟩ | hk := hown
        · cases hk
          exact absurd hnone hsome
        · cases hk
        · cases hk
  · exact Or.inr (hlater (.processed (cString t.idempotencyKey) consumerReserve) hmark)

def Row.isStock : Row → Bool
  | .stock _ => true
  | _ => false

def Row.isReservation : Row → Bool
  | .reservation _ => true
  | _ => false

/-- How much a call holds : nothing, its key, its reservation, or a stock row. -/
def held (d : Writes Row.Value) : ℕ :=
  if d.locks.any Row.isStock then 3
  else if d.locks.any Row.isReservation then 2
  else if d.locks ≠ [] then 1 else 0

section

variable {d : Writes Row.Value}

theorem held_of_stock {sku : String} (h : .stock sku ∈ d.locks) : held d = 3 :=
  if_pos (List.any_eq_true.mpr ⟨_, h, rfl⟩)

theorem two_le_held {u : Uuid} (h : .reservation u ∈ d.locks) : 2 ≤ held d := by
  have hany : d.locks.any Row.isReservation = true := List.any_eq_true.mpr ⟨_, h, rfl⟩
  rw [held, if_pos hany]
  split_ifs <;> decide

theorem one_le_held {k : Row} (h : k ∈ d.locks) : 1 ≤ held d := by
  rw [held, if_pos (List.ne_nil_of_mem h)]
  split_ifs <;> decide

theorem held_le_two (h : ∀ sku, .stock sku ∉ d.locks) : held d ≤ 2 := by
  have hstock : d.locks.any Row.isStock ≠ true := by
    intro hany
    obtain ⟨k, hk, hkind⟩ := List.any_eq_true.mp hany
    cases k with
    | stock sku => exact h sku hk
    | _ => cases hkind
  rw [held, if_neg hstock]
  split_ifs <;> decide

theorem held_le_one {mark : String × String} {s : Store Row.Value}
    (h : Holds mark (fun _ => False) s d) : held d ≤ 1 := by
  have hkind : ∀ kind : Row → Bool, (∀ key consumer, kind (.processed key consumer) = false) →
      d.locks.any kind ≠ true := by
    intro kind hkind hany
    obtain ⟨k, hk, htrue⟩ := List.any_eq_true.mp hany
    obtain rfl | hfalse := h.locks k hk
    · simp [hkind] at htrue
    · exact hfalse
  rw [held, if_neg (hkind _ fun _ _ => rfl), if_neg (hkind _ fun _ _ => rfl)]
  split_ifs <;> decide

end

variable {txs : ι → Tx} {db : Db} {s : Store Row.Value} {i j : ι} {d d' : Writes Row.Value}
  {p' : TxProg} {q : Sql}

/-- A reservation that has inserted its key does not wait for a reservation row : its saga has
none, and a call that has locked it would have the same key. -/
theorem OneKey.not_waits_reservation (h : OneKey txs db) (hs : Unreserved txs s) {t : ReserveTx}
    (ht : txs i = .reserve t) {own : Row → Prop} (hholds : Holds t.mark own s d)
    (hat' : (txs j).At s p' d') (hapart : d.locks.Disjoint d'.locks) {u : Uuid}
    (hu : uuidIn (cString t.sagaId) = some u) : .reservation u ∉ d'.locks := by
  intro hmem
  have hnone : s (.reservation u) = none := by
    refine (hs i t u ht hu).resolve_right fun hmark => ?_
    exact Bool.false_ne_true (hholds.fresh.symm.trans hmark)
  obtain ⟨hholds', hown⟩ := hat'.own hmem (by simp)
  cases hj : txs j with
  | reserve t' =>
    rw [hj] at hown hholds'
    obtain hk | ⟨u', hu', hk⟩ | hk := hown
    · cases hk
    · cases hk
      have hmark := hholds'.mem_locks
      rw [show Tx.mark (.reserve t') = t'.mark from rfl, ReserveTx.mark,
        ← h.calls i j t t' u ht hj hu hu'] at hmark
      exact hapart hholds.mem_locks hmark
    · cases hk
  | release t' =>
    rw [hj] at hown
    obtain ⟨u', hk, hsome⟩ | ⟨sku, hk⟩ | hk := hown
    · cases hk
      exact hsome hnone
    · cases hk
    · cases hk

/-- A reservation waits only for calls that hold more. -/
theorem OneKey.held_lt_of_reserve (h : OneKey txs db) (hs : Unreserved txs s) {t : ReserveTx}
    (ht : txs i = .reserve t) {k : q.Answer → TxProg} (hat : t.At s (call q k) d)
    (hat' : (txs j).At s p' d') (hji : j ≠ i) (hapart : d.locks.Disjoint d'.locks)
    (hwaits : postgres.waits s d d' q = true) : held d < held d' := by
  generalize hp : call q k = p at hat
  obtain ⟨row, effect, htouch, hlocks, hmem⟩ := Rows.waits_eq_true hwaits
  cases hat with
  | body => exact one_le_held hmem
  | duplicate =>
    cases hp
    simp only [postgres, Sql.touch] at htouch
    split at htouch <;> cases htouch
    cases hlocks
  | duplicated b => cases hp
  | decide hholds =>
    cases hp
    cases htouch
    rw [held_of_stock hmem]
    exact (held_le_one hholds).trans_lt (by decide)
  | take hholds hstock =>
    cases hp
    cases htouch
    -- the stock row is locked already, or there is none
    have hnot : Row.stock (cString t.sku) ∉ d.locks := fun hown => hapart hown hmem
    have hnone := hstock.resolve_right hnot
    rw [Writes.see_of_not_written (Writes.not_written hnot), hnone] at hlocks
    cases hlocks
  | insert hholds =>
    cases hp
    obtain ⟨u, hu, rfl⟩ := reservation_of_touch htouch
    exact absurd hmem (h.not_waits_reservation hs ht hholds hat' hapart hu)
  | announce hholds outcome =>
    cases hp
    obtain rfl := outbox_of_touch htouch
    refine absurd (h.distinct j i ?_) hji
    rw [hat'.rowId_eq hmem, ht]
    rfl
  | done hholds b => cases hp

/-- A release waits only for calls that hold more. -/
theorem OneKey.held_lt_of_release (h : OneKey txs db) {t : ReleaseTx} (ht : txs i = .release t)
    {k : q.Answer → TxProg} (hat : t.At s (call q k) d) (hat' : (txs j).At s p' d') (hji : j ≠ i)
    (hwaits : postgres.waits s d d' q = true) : held d < held d' := by
  generalize hp : call q k = p at hat
  obtain ⟨row, effect, htouch, hlocks, hmem⟩ := Rows.waits_eq_true hwaits
  cases hat with
  | body => exact one_le_held hmem
  | duplicated b => cases hp
  | find hholds =>
    cases hp
    simp only [postgres, Sql.touch] at htouch
    split at htouch <;> cases htouch
    exact Nat.lt_of_le_of_lt (held_le_one hholds) (two_le_held hmem)
  | giveBack hholds hstock sku quantity =>
    cases hp
    cases htouch
    rw [held_of_stock hmem]
    exact Nat.lt_succ_of_le (held_le_two hstock)
  | announce hholds =>
    cases hp
    obtain rfl := outbox_of_touch htouch
    refine absurd (h.distinct j i ?_) hji
    rw [hat'.rowId_eq hmem, ht]
    rfl
  | done hholds b => cases hp

/-- With one key for each saga, the calls never wait in a circle. -/
theorem reserve_release_acyclic (txs : ι → Tx) (db : Db) (h : OneKey txs db)
    (moves : List (Move ι)) (i : ι) :
    ¬Relation.TransGen (postgres.engine.WaitsFor (world txs db moves)) i i := by
  have hupheld := upheld txs fun j s b d hs hat _ hlater => h.commit j s b d hs hat hlater
  obtain ⟨hs, hat⟩ := hupheld.run h.unreserved moves
  have hc := postgres.engine.coherent_run Tx.commits (fun i => (txs i).body) db.rows moves
  refine Engine.not_waitsFor_cycle held (fun i j q k d p' d' hji hi hj hwaits => ?_) i
  have hati := hat i _ d hi
  have hatj := hat j p' d' hj
  cases ht : txs i with
  | reserve t =>
    rw [ht] at hati
    exact h.held_lt_of_reserve hs ht hati hatj hji (hc.apart (Ne.symm hji) hi hj) hwaits
  | release t =>
    rw [ht] at hati
    exact h.held_lt_of_release ht hati hatj hji hwaits

end

/-- A reservation and a release at the same time. -/
def both (t : ReserveTx) (t' : ReleaseTx) : Bool → Tx
  | true => .reserve t
  | false => .release t'

/-- Three units for the first saga. -/
def reserveThree (key : String) (id : Uuid) (h : hasNul key = false := by exact Eq.refl false) :
    ReserveTx :=
  ⟨id, .ofKey key id h, sagaA, key, "SKU-1", .lit 3,
    reserveEvent (.ofKey key id h) sagaA "SKU-1" (.lit 3) ""⟩

def releaseThree (key : String) (id : Uuid) (h : hasNul key = false := by exact Eq.refl false) :
    ReleaseTx :=
  ⟨.ofKey key id h, sagaA, "", key, consumerRelease,
    fun _ => releasedEvent (.ofKey key id h) sagaA "" ""⟩

/-- The first reservation of a saga, and its release. -/
theorem reserve_release_acyclic_first :
    OneKey (both (reserveThree "k1" 1) (releaseThree "k2" 2)) (Db.ofStock tenUnits) ∧
      ¬Relation.TransGen (postgres.engine.WaitsFor
        (world (both (reserveThree "k1" 1) (releaseThree "k2" 2)) (Db.ofStock tenUnits)
          [.go true, .go false, .go true, .go false])) true true := by
  have h : OneKey (both (reserveThree "k1" 1) (releaseThree "k2" 2)) (Db.ofStock tenUnits) := by
    refine ⟨by decide, fun i j t t' u ht ht' _ _ => ?_, fun i t u _ _ hsome => ?_⟩
    · cases i <;> cases j <;> cases ht <;> cases ht'
      rfl
    · exact absurd rfl hsome
  exact ⟨h, reserve_release_acyclic _ _ h _ _⟩

/-! ## Two calls that wait for each other -/

section

variable {t : ReserveTx} {t' : ReleaseTx} {db : Db}

/-- The two sessions, over tables that have not changed. -/
def sessions (db : Db) (x y : Session Sql.Answer (Writes Row.Value) (Except SqlError Outcome)) :
    World Bool :=
  ⟨db.rows, fun b => if b then x else y⟩

variable {x y : Session Sql.Answer (Writes Row.Value) (Except SqlError Outcome)} {q : Sql}
  {k : q.Answer → TxProg} {d : Writes Row.Value}

theorem set_sessions (b : Bool)
    (z : Session Sql.Answer (Writes Row.Value) (Except SqlError Outcome)) :
    (sessions db x y).set b z = if b then sessions db z y else sessions db x z := by
  cases b <;> refine congrArg (Sessions.mk db.rows) (funext fun j => ?_) <;> cases j <;> rfl

abbrev bothStep (t : ReserveTx) (t' : ReleaseTx) : World Bool → Move Bool → World Bool :=
  postgres.engine.step Tx.commits fun i => (both t t' i).body

theorem enter_sessions (b : Bool) (hidle : (sessions db x y).session b = .idle) :
    bothStep t t' (sessions db x y) (.go b) =
      if b then sessions db (.active t.body Writes.empty) y
      else sessions db x (.active t'.body Writes.empty) := by
  rw [bothStep, Engine.step]
  simp only [hidle]
  rw [set_sessions]
  cases b <;> rfl

/-- The step of a session whose next statement does not wait for the other. -/
theorem step_sessions (b : Bool) (hcall : (sessions db x y).session b = .active (call q k) d)
    (hfree : postgres.engine.blocks db.rows d q ((sessions db x y).session !b) = false)
    {a : q.Answer} {d' : Writes Row.Value} (hanswer : postgres.answer db.rows d q = (a, d')) :
    bothStep t t' (sessions db x y) (.go b) =
      if b then sessions db (.active (k a) d') y else sessions db x (.active (k a) d') := by
  have hnot : ¬postgres.engine.Blocked (sessions db x y) b d q := by
    rintro ⟨j, hj, hblocks⟩
    obtain rfl : j = !b := by cases j <;> cases b <;> simp at hj ⊢
    exact Bool.false_ne_true (hfree.symm.trans hblocks)
  have hanswer' : postgres.engine.answer (sessions db x y).store d q = (a, d') := hanswer
  rw [bothStep, Engine.step]
  simp only [hcall]
  rw [if_neg hnot, hanswer', set_sessions]

/-- A statement does not wait for a call that has not locked its row. -/
theorem blocks_eq_false {s : Store Row.Value} {p : TxProg} {d' : Writes Row.Value}
    (h : ∀ k effect, q.touch = .row k effect → k ∉ d'.locks) :
    postgres.engine.blocks s d q (.active p d') = false := by
  refine Bool.eq_false_iff.mpr fun hwaits => ?_
  obtain ⟨k, effect, htouch, -, hmem⟩ := Rows.waits_eq_true hwaits
  exact h k effect htouch hmem

theorem waitsFor_sessions (b c : Bool) (hne : c ≠ b) {p' : TxProg} {d' : Writes Row.Value}
    (hcall : (sessions db x y).session b = .active (call q k) d)
    (hother : (sessions db x y).session c = .active p' d')
    (hwaits : postgres.waits db.rows d d' q = true) :
    postgres.engine.WaitsFor (sessions db x y) b c := by
  refine ⟨hne, q, k, d, hcall, ?_⟩
  rw [hother]
  exact hwaits

/-- A saga that has a RESERVED row `r` is reserved again, with a new key, and released. -/
structure Crossing (db : Db) (t : ReserveTx) (t' : ReleaseTx) (u : Uuid) (r : Reservation)
    (row : StockRow) : Prop where
  saga : uuidIn (cString t.sagaId) = some u
  saga' : uuidIn (cString t'.sagaId) = some u
  reservation : db.reservations.find? u = some r
  status : r.status = .reserved
  sku : r.sku = cString t.sku
  stock : db.stock.find? (cString t.sku) = some row
  clean : isPoisonSku t.sku = false
  enough : t.quantity.val ≤ row.available.val
  take : ∃ stock, moveStock db.stock (cString t.sku) t.quantity.val = .ok stock
  giveBack : ∃ stock, moveStock db.stock (cString t.sku) (-r.quantity.val) = .ok stock
  fresh : t.mark ∉ db.processed
  fresh' : t'.mark ∉ db.processed
  keys : t.mark ≠ t'.mark

/-- A key that is not there is inserted. -/
theorem answer_markProcessed_of_fresh {key consumer : String}
    (h : (key, consumer) ∉ db.processed) :
    postgres.answer db.rows Writes.empty (.markProcessed key consumer) =
      (true, Writes.empty.write (.processed key consumer) true) := by
  obtain ⟨htrue, -⟩ | ⟨-, hanswer⟩ := answer_markProcessed db.rows key consumer
  · exact absurd (of_decide_eq_true htrue) h
  · exact hanswer

/-- An UPDATE that succeeds alone writes the row. -/
theorem updateStock_writes {sku : String} {n : ℤ} {row : StockRow} {stock : Stock}
    (hrow : db.stock.find? sku = some row) (h : moveStock db.stock sku n = .ok stock)
    (hsee : d.see db.rows (.stock sku) = some row) :
    ∃ row', postgres.answer db.rows d (.updateStock sku n) =
        (.ok (), d.write (.stock sku) (some row')) ∧
      ∀ d' : Writes Row.Value, .stock sku ∈ d'.locks →
        postgres.waits db.rows d d' (.updateStock sku n) = true := by
  simp only [moveStock, hrow] at h
  cases ha : Int4.ofInt? (row.available.val - n) with
  | none => simp [ha] at h
  | some available =>
    cases hr : Int4.ofInt? (row.reserved.val + n) with
    | none => simp [ha, hr] at h
    | some reserved =>
      refine ⟨{ row with available := available, reserved := reserved }, ?_, fun d' hmem => ?_⟩
      · simp only [Rows.answer, postgres, Sql.touch, hsee, ha, hr]
        rfl
      · simp only [Rows.waits, postgres, Sql.touch, hsee, ha, hr, Effect.locks, Bool.true_and,
          decide_eq_true_eq]
        exact hmem

/-! ### The writes of the two calls -/

/-- With the key inserted. -/
def marked (mark : String × String) : Writes Row.Value :=
  Writes.empty.write (.processed mark.1 mark.2) true

theorem mem_locks_marked {mark : String × String} {k : Row} :
    k ∈ (marked mark).locks ↔ k = .processed mark.1 mark.2 :=
  List.mem_singleton

theorem see_marked {mark : String × String} {s : Store Row.Value} {k : Row}
    (h : k ≠ .processed mark.1 mark.2) : (marked mark).see s k = s k :=
  Writes.see_of_not_written (Writes.not_written fun hk => h (mem_locks_marked.mp hk))

/-- With the stock row locked as well. -/
def ReserveTx.selected (t : ReserveTx) : Writes Row.Value :=
  (marked t.mark).lock (.stock (cString t.sku))

/-- With the reservation row updated as well. -/
def ReleaseTx.released (t : ReleaseTx) (u : Uuid) (r : Reservation) : Writes Row.Value :=
  (marked t.mark).write (.reservation u) (some { r with status := .released })

namespace Crossing

variable {u : Uuid} {r : Reservation} {row : StockRow}

/-- The reservation begins and inserts its key. -/
theorem reserve_enters (h : Crossing db t t' u r row) :
    runFrom (bothStep t t') (Sessions.init db.rows) [.go true, .go true] =
      sessions db (.active t.decide (marked t.mark)) .idle := by
  have hinit : (Sessions.init db.rows : World Bool) = sessions db .idle .idle :=
    congrArg (Sessions.mk db.rows) (funext fun b => by cases b <;> rfl)
  have henter : bothStep t t' (sessions db .idle .idle) (.go true) =
      sessions db (.active t.body Writes.empty) .idle := enter_sessions true rfl
  have hmark : bothStep t t' (sessions db (.active t.body Writes.empty) .idle) (.go true) =
      sessions db (.active t.decide (marked t.mark)) .idle :=
    step_sessions true rfl rfl (answer_markProcessed_of_fresh h.fresh)
  rw [hinit, runFrom_cons, henter, runFrom_cons, hmark, runFrom_nil]

/-- So does the release, whose key is another one. -/
theorem release_enters (h : Crossing db t t' u r row) :
    runFrom (bothStep t t') (sessions db (.active t.decide (marked t.mark)) .idle)
      [.go false, .go false] =
        sessions db (.active t.decide (marked t.mark)) (.active t'.find (marked t'.mark)) := by
  have henter : bothStep t t' (sessions db (.active t.decide (marked t.mark)) .idle) (.go false) =
      sessions db (.active t.decide (marked t.mark)) (.active t'.body Writes.empty) :=
    enter_sessions false rfl
  have hmark : bothStep t t' (sessions db (.active t.decide (marked t.mark))
      (.active t'.body Writes.empty)) (.go false) =
        sessions db (.active t.decide (marked t.mark)) (.active t'.find (marked t'.mark)) := by
    refine step_sessions false rfl (blocks_eq_false ?_) (answer_markProcessed_of_fresh h.fresh')
    intro k effect htouch hmem
    cases htouch
    obtain ⟨hkey, hconsumer⟩ := Row.processed.inj (mem_locks_marked.mp hmem)
    exact h.keys (Prod.ext hkey hconsumer).symm
  rw [runFrom_cons, henter, runFrom_cons, hmark, runFrom_nil]

/-- The reservation locks the stock row, of which there is enough. -/
theorem reserve_selects (h : Crossing db t t' u r row) :
    bothStep t t'
      (sessions db (.active t.decide (marked t.mark)) (.active t'.find (marked t'.mark)))
      (.go true) = sessions db (.active t.take t.selected) (.active t'.find (marked t'.mark)) := by
  have hsee : (marked t.mark).see db.rows (.stock (cString t.sku)) = some row :=
    (see_marked (by simp)).trans h.stock
  have hselect : postgres.answer db.rows (marked t.mark) (.selectAvailable (cString t.sku)) =
      (some row.available, t.selected) := by
    simp only [Rows.answer, postgres, Sql.touch, hsee]
    rfl
  have hlack : ¬(isPoisonSku t.sku || (some row.available).elim 0 Int4.val < t.quantity.val) =
      true := by
    rw [h.clean, Bool.false_or, decide_eq_true_eq]
    exact not_lt.mpr h.enough
  have htake : (if isPoisonSku t.sku || (some row.available).elim 0 Int4.val < t.quantity.val
      then t.announce ⟨.insufficientStock, "", false⟩ else t.take) = t.take := if_neg hlack
  rw [← htake]
  refine step_sessions true rfl (blocks_eq_false ?_) hselect
  intro k effect htouch hmem
  cases htouch
  cases mem_locks_marked.mp hmem

/-- The release updates the reservation row. -/
theorem release_finds (h : Crossing db t t' u r row) :
    bothStep t t'
      (sessions db (.active t.take t.selected) (.active t'.find (marked t'.mark))) (.go false) =
        sessions db (.active t.take t.selected)
          (.active (t'.giveBack r.sku r.quantity) (t'.released u r)) := by
  have hsee : (marked t'.mark).see db.rows (.reservation u) = some r :=
    (see_marked (by simp)).trans h.reservation
  have hfind : postgres.answer db.rows (marked t'.mark) (.updateReleased (cString t'.sagaId)) =
      (.ok (some (r.sku, r.quantity)), t'.released u r) := by
    simp only [Rows.answer, postgres, Sql.touch, h.saga', hsee, h.status, if_true]
    rfl
  refine step_sessions false rfl (blocks_eq_false ?_) hfind
  intro k effect htouch hmem
  simp only [Sql.touch, h.saga'] at htouch
  cases htouch
  obtain hk | hk := List.mem_cons.mp hmem
  · cases hk
  · cases mem_locks_marked.mp hk

/-- The reservation updates the stock. -/
theorem reserve_takes (h : Crossing db t t' u r row) :
    ∃ d : Writes Row.Value, bothStep t t'
        (sessions db (.active t.take t.selected)
          (.active (t'.giveBack r.sku r.quantity) (t'.released u r))) (.go true) =
        sessions db (.active t.insert d)
          (.active (t'.giveBack r.sku r.quantity) (t'.released u r)) ∧
      .stock (cString t.sku) ∈ d.locks ∧ d.see db.rows (.reservation u) = some r := by
  obtain ⟨stock, htake⟩ := h.take
  have hsee : t.selected.see db.rows (.stock (cString t.sku)) = some row := h.stock
  obtain ⟨row', hupdate, -⟩ := updateStock_writes h.stock htake hsee
  refine ⟨_, step_sessions true rfl (blocks_eq_false ?_) hupdate, List.mem_cons_self,
    h.reservation⟩
  intro k effect htouch hmem
  cases htouch
  obtain hk | hk := List.mem_cons.mp hmem
  · cases hk
  · cases mem_locks_marked.mp hk

end Crossing

/-- Both insert their keys, the reservation locks its stock row, the release its reservation
row, and the reservation updates the stock. -/
def crossing : List (Move Bool) :=
  [Move.go true, Move.go true] ++ [Move.go false, Move.go false] ++
    [Move.go true, Move.go false, Move.go true]

theorem Crossing.run {u : Uuid} {r : Reservation} {row : StockRow}
    (h : Crossing db t t' u r row) :
    ∃ d : Writes Row.Value, world (both t t') db crossing =
        sessions db (.active t.insert d)
          (.active (t'.giveBack r.sku r.quantity) (t'.released u r)) ∧
      .stock (cString t.sku) ∈ d.locks ∧ d.see db.rows (.reservation u) = some r := by
  obtain ⟨d, htakes, hlocked, hsee⟩ := h.reserve_takes
  refine ⟨d, ?_, hlocked, hsee⟩
  change runFrom (bothStep t t') _ crossing = _
  rw [crossing, runFrom_append, runFrom_append, h.reserve_enters, h.release_enters,
    runFrom_cons, h.reserve_selects, runFrom_cons, h.release_finds, runFrom_cons, htakes,
    runFrom_nil]

/-- Each of the two calls can come to wait for the other : the reservation has the stock row
and waits for the reservation row, the release has the reservation row and waits for the stock
row. -/
theorem reserve_release_deadlock (db : Db) (t : ReserveTx) (t' : ReleaseTx) (u : Uuid)
    (r : Reservation) (row : StockRow) (h : Crossing db t t' u r row) :
    postgres.engine.WaitsFor (world (both t t') db crossing) true false ∧
      postgres.engine.WaitsFor (world (both t t') db crossing) false true := by
  obtain ⟨d, hrun, hstock, hreservation⟩ := h.run
  obtain ⟨stock, hgive⟩ := h.giveBack
  rw [hrun]
  constructor
  · have hwaits : postgres.waits db.rows d (t'.released u r)
        (.upsertReservation t.newId (cString t.sagaId) (cString t.sku) t.quantity) = true := by
      simp only [Rows.waits, postgres, Sql.touch, h.saga, hreservation]
      exact decide_eq_true List.mem_cons_self
    exact waitsFor_sessions true false (by decide) rfl rfl hwaits
  · obtain ⟨-, -, hwaits⟩ := updateStock_writes h.stock hgive (d := t'.released u r) h.stock
    rw [← h.sku] at hwaits hstock
    exact waitsFor_sessions false true (by decide) rfl rfl (hwaits d hstock)

end

/-- The tables after three units were reserved. -/
def threeReserved : Db where
  stock := ⟨[⟨"SKU-1", .lit 7, .lit 3⟩], by decide⟩
  reservations := ⟨[⟨9, 10, "SKU-1", .lit 3, .reserved⟩], by decide⟩
  processed := [("k0", consumerReserve)]
  outbox := Table.empty

/-- A second reservation of the saga, with a new key, against its release. -/
theorem reserve_release_deadlock_second :
    Crossing threeReserved (reserveThree "k1" 1) (releaseThree "k2" 2) 10
        ⟨9, 10, "SKU-1", .lit 3, .reserved⟩ ⟨"SKU-1", .lit 7, .lit 3⟩ ∧
      postgres.engine.WaitsFor
        (world (both (reserveThree "k1" 1) (releaseThree "k2" 2)) threeReserved crossing)
        true false := by
  have hsku : cString (reserveThree "k1" 1).sku = "SKU-1" := by
    decide +kernel
  have h : Crossing threeReserved (reserveThree "k1" 1) (releaseThree "k2" 2) 10
      ⟨9, 10, "SKU-1", .lit 3, .reserved⟩ ⟨"SKU-1", .lit 7, .lit 3⟩ :=
    { saga := by decide +kernel
      saga' := by decide +kernel
      reservation := rfl
      status := rfl
      sku := hsku.symm
      stock := by rw [hsku]; rfl
      clean := by decide +kernel
      enough := by decide
      take := by rw [hsku]; exact ⟨_, rfl⟩
      giveBack := by rw [hsku]; exact ⟨_, rfl⟩
      fresh := by decide +kernel
      fresh' := by decide +kernel
      keys := by decide +kernel }
  exact ⟨h, (reserve_release_deadlock _ _ _ _ _ _ h).1⟩

end Choreography.InventoryService
