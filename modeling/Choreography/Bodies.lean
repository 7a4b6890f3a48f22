import Choreography.Stock
import Choreography.Wire

/-!
# The bodies of messages

Inventory reads the body of an `order.cancelled` message with `event::parse`. Bytes that are no
JSON, and JSON that is no object, give the default envelope. In an object, a field that is absent
has its default, but a field of another type than its default's makes nlohmann's `value` throw,
and a version that is no `int` is converted to one. So the parser is tolerant exactly of the bodies
whose fields are well typed (`tolerated_iff`).

What is handled after it, from whatever envelope, is a release or nothing
(`releasesOrKeeps_handle`), and so is a message with a body that makes the parser throw
(`releasesOrKeeps_onOrderCancelled`).
-/

namespace Choreography.InventoryService

/-! ## Parsing -/

-- `nlohmann::json::parse` without exceptions : the value of a body, `none` for a discarded one.
variable (decode : ByteArray → Option Json) (wide : ℚ → ℤ)

/-- `event::parse` on the bytes of a message. -/
def parseBytes (raw : ByteArray) : Except Thrown Envelope :=
  match decode raw with
  | none => .ok emptyEnvelope
  | some v => parse wide v

/-- The value of a text field that is a text, and the default of any other. -/
def textOr (default : String) : Option Json → String
  | some (.str s) => s
  | _ => default

/-- The number is an integer that an `int` holds. -/
def FitsInt (q : ℚ) : Prop := q.den = 1 ∧ -2 ^ 31 ≤ q.num ∧ q.num < 2 ^ 31

instance (q : ℚ) : Decidable (FitsInt q) := inferInstanceAs (Decidable (_ ∧ _))

/-- The value of an `int` field that is an `int`, and the default of any other. -/
def intOr (default : ℤ) : Option Json → ℤ
  | some (.num q) => if FitsInt q then q.num else default
  | _ => default

/-- The envelope that a tolerant parser makes of a body : each field of the type of its default
has the value that the object has, and each other field its default. -/
def tolerantEnvelope : Option Json → Envelope
  | some (.obj fields) =>
    { eventId := textOr "" (Json.last? "eventId" fields)
      eventType := textOr "" (Json.last? "eventType" fields)
      schemaVersion := intOr schemaVersion (Json.last? "schemaVersion" fields)
      occurredAt := textOr "" (Json.last? "occurredAt" fields)
      sagaId := textOr "" (Json.last? "sagaId" fields)
      idempotencyKey := textOr "" (Json.last? "idempotencyKey" fields)
      traceparent := textOr "" (Json.last? "traceparent" fields)
      data := (Json.last? "data" fields).getD (.obj []) }
  | _ => emptyEnvelope

/-- The text fields of an envelope. -/
def textFields : List String :=
  ["eventId", "eventType", "occurredAt", "sagaId", "idempotencyKey", "traceparent"]

/-- A field that is absent or a text. -/
def IsText (field : Option Json) : Prop := ∀ v, field = some v → ∃ s, v = .str s

/-- A field that is absent, or an `int`, or that C++ happens to convert to the default : the
default is what another type should give. -/
def ReadsInt (default : ℤ) : Option Json → Prop
  | none => True
  | some (.num q) => FitsInt q ∨ toInt wide q = default
  | some (.bool b) => (if b then 1 else 0) = default
  | some _ => False

/-- A body that is no object, or an object of well-typed fields. -/
def WellTyped : Option Json → Prop
  | some (.obj fields) =>
    (∀ key ∈ textFields, IsText (Json.last? key fields)) ∧
      ReadsInt wide schemaVersion (Json.last? "schemaVersion" fields)
  | _ => True

theorem dataValue_eq_textOr_iff (fields : List (String × Json)) (key default : String) :
    dataValue (.obj fields.reverse) key default = .ok (textOr default (Json.last? key fields)) ↔
      IsText (Json.last? key fields) := by
  unfold dataValue IsText
  dsimp only
  rw [← Json.last?]
  cases h : Json.last? key fields with
  | none => simp [textOr]
  | some v => cases v <;> simp [textOr]

theorem toInt_of_fitsInt {q : ℚ} (h : FitsInt q) : toInt wide q = q.num := by
  obtain ⟨hden, hlower, hupper⟩ := h
  rw [toInt, hden, Nat.cast_one, Int.tdiv_one, if_pos ⟨hlower, hupper⟩]

theorem intValue_eq_intOr_iff (default : ℤ) (field : Option Json) :
    intValue wide default field = .ok (intOr default field) ↔ ReadsInt wide default field := by
  cases field with
  | none => simp [intValue, intOr, ReadsInt]
  | some v =>
    cases v with
    | num q =>
      by_cases hq : FitsInt q
      · simp [intValue, intOr, ReadsInt, hq, toInt_of_fitsInt wide hq]
      · simp [intValue, intOr, ReadsInt, hq]
    | bool b => simp [intValue, intOr, ReadsInt]
    | _ => simp [intValue, ReadsInt]

/-- The parser returns an envelope when each of its fields is read. -/
theorem parse_obj_eq_ok {fields : List (String × Json)} {env : Envelope} :
    parse wide (.obj fields) = .ok env ↔
      dataValue (.obj fields.reverse) "eventId" "" = .ok env.eventId ∧
      dataValue (.obj fields.reverse) "eventType" "" = .ok env.eventType ∧
      intValue wide schemaVersion (Json.last? "schemaVersion" fields) = .ok env.schemaVersion ∧
      dataValue (.obj fields.reverse) "occurredAt" "" = .ok env.occurredAt ∧
      dataValue (.obj fields.reverse) "sagaId" "" = .ok env.sagaId ∧
      dataValue (.obj fields.reverse) "idempotencyKey" "" = .ok env.idempotencyKey ∧
      dataValue (.obj fields.reverse) "traceparent" "" = .ok env.traceparent ∧
      (Json.last? "data" fields).getD (.obj []) = env.data := by
  have hbind : ∀ {α β : Type} {x : Except Thrown α} {f : α → Except Thrown β} {b : β},
      x >>= f = .ok b ↔ ∃ a, x = .ok a ∧ f a = .ok b := by
    intro α β x f b
    cases x <;> simp [bind, Except.bind]
  obtain ⟨eventId, eventType, version, occurredAt, sagaId, idempotencyKey, traceparent, data⟩ := env
  simp only [parse, hbind, pure, Except.pure, Except.ok.injEq, Envelope.mk.injEq]
  constructor
  · rintro ⟨_, h1, _, h2, _, h3, _, h4, _, h5, _, h6, _, h7, rfl, rfl, rfl, rfl, rfl, rfl, rfl, h8⟩
    exact ⟨h1, h2, h3, h4, h5, h6, h7, h8⟩
  · rintro ⟨h1, h2, h3, h4, h5, h6, h7, h8⟩
    exact ⟨_, h1, _, h2, _, h3, _, h4, _, h5, _, h6, _, h7, rfl, rfl, rfl, rfl, rfl, rfl, rfl, h8⟩

theorem parseBytes_eq_tolerantEnvelope_iff (raw : ByteArray) :
    parseBytes decode wide raw = .ok (tolerantEnvelope (decode raw)) ↔
      WellTyped wide (decode raw) := by
  unfold parseBytes
  cases decode raw with
  | none => simp [tolerantEnvelope, WellTyped]
  | some v =>
    cases v with
    | obj fields =>
      simp only [tolerantEnvelope, parse_obj_eq_ok, dataValue_eq_textOr_iff, intValue_eq_intOr_iff,
        WellTyped, textFields, List.forall_mem_cons, List.not_mem_nil, false_implies, forall_const,
        and_true]
      tauto
    | _ => simp [parse, tolerantEnvelope, WellTyped]

/-! ## Handling -/

/-- The stock, the reservations and the events are as they were. -/
structure Unmoved (db db' : Db) : Prop where
  stock : db'.stock = db.stock
  reservations : db'.reservations = db.reservations
  outbox : db'.outbox = db.outbox

/-- The reservation of the envelope's saga is released, or nothing is moved. -/
def ReleasesOrKeeps (db : Db) (stamp : Stamp) (env : Envelope) (db' : Db) : Prop :=
  (∃ u r ob, uuidIn env.sagaId = some u ∧
    Releases db stamp u r (cString env.idempotencyKey) consumerOrderCancelled ob db') ∨
      Unmoved db db'

/-- This is all that an envelope can do, whatever is in it. -/
theorem releasesOrKeeps_handle (db : Db) (stamp : Stamp) (env : Envelope)
    (inTraceparent : String) : ReleasesOrKeeps db stamp env
      (committed db (handleOrderCancelled db stamp env inTraceparent)) := by
  cases hok : handleOrderCancelled db stamp env inTraceparent with
  | error e => exact Or.inr ⟨rfl, rfl, rfl⟩
  | ok result =>
    obtain ⟨outcome, db'⟩ := result
    obtain ⟨-, rfl, -⟩ | ⟨-, -, -, rfl⟩ | hreleased := handleOrderCancelled_cases hok
    · exact Or.inr ⟨rfl, rfl, rfl⟩
    · exact Or.inr ⟨rfl, rfl, rfl⟩
    · exact Or.inl hreleased

/-- The consumer's callback on a message of `order.cancelled`. -/
def onOrderCancelled (db : Db) (stamp : Stamp) (raw : ByteArray) (traceparent : String) :
    Except Thrown (ReleaseOutcome × Db) :=
  match parseBytes decode wide raw with
  | .error e => .error e
  | .ok env => handleOrderCancelled db stamp env traceparent

/-- Whatever its body, a message releases the reservation of the saga that it is parsed to, or
it moves nothing, also when the callback throws. -/
theorem releasesOrKeeps_onOrderCancelled (db : Db) (stamp : Stamp) (raw : ByteArray)
    (traceparent : String) :
    (∃ env, parseBytes decode wide raw = .ok env ∧ ReleasesOrKeeps db stamp env
      (committed db (onOrderCancelled decode wide db stamp raw traceparent))) ∨
      Unmoved db (committed db (onOrderCancelled decode wide db stamp raw traceparent)) := by
  unfold onOrderCancelled
  cases parseBytes decode wide raw with
  | error e => exact Or.inr ⟨rfl, rfl, rfl⟩
  | ok env => exact Or.inl ⟨env, rfl, releasesOrKeeps_handle db stamp env traceparent⟩

/-- The body is parsed without a throw to the envelope that it should give, and that envelope
is handled safely. -/
structure Tolerated (raw : ByteArray) : Prop where
  parsed : parseBytes decode wide raw = .ok (tolerantEnvelope (decode raw))
  handled : ∀ db stamp inTraceparent, ReleasesOrKeeps db stamp (tolerantEnvelope (decode raw))
    (committed db (handleOrderCancelled db stamp (tolerantEnvelope (decode raw)) inTraceparent))

/-- The bodies that Inventory tolerates are those that are no object, and the objects
of well-typed fields. -/
theorem tolerated_iff (raw : ByteArray) :
    Tolerated decode wide raw ↔ WellTyped wide (decode raw) := by
  rw [← parseBytes_eq_tolerantEnvelope_iff]
  exact ⟨fun h => h.parsed, fun h => ⟨h, fun db stamp => releasesOrKeeps_handle db stamp _⟩⟩

/-- An event id that is a number makes the parser throw. -/
theorem parseBytes_of_number {decode : ByteArray → Option Json} {raw : ByteArray} {q : ℚ}
    (hraw : decode raw = some (.obj [("eventId", .num q)])) :
    parseBytes decode wide raw = .error .typeError := by
  rw [parseBytes, hraw]
  rfl

/-- The body whose event id is the number 5. -/
def numberedBody : ByteArray := "\x7b\"eventId\":5\x7d".toUTF8

/-- What `nlohmann::json::parse` makes of the body, among bodies that it discards. -/
def decodeNumbered (raw : ByteArray) : Option Json :=
  if raw = numberedBody then some (.obj [("eventId", .num 5)]) else none

/-- The parser throws, where a tolerant one has the default. -/
theorem not_tolerated_numberedBody :
    tolerantEnvelope (decodeNumbered numberedBody) = emptyEnvelope ∧
      parseBytes decodeNumbered (fun _ => 0) numberedBody = .error .typeError ∧
      ¬Tolerated decodeNumbered (fun _ => 0) numberedBody := by
  have hraw : decodeNumbered numberedBody = some (.obj [("eventId", .num 5)]) := if_pos rfl
  have hthrow := parseBytes_of_number (fun _ => 0) hraw
  refine ⟨?_, hthrow, fun h => ?_⟩
  · rw [hraw]
    rfl
  · cases hthrow.symm.trans h.parsed

end Choreography.InventoryService
