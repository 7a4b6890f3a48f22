import Choreography.Inventory
import Choreography.Payment
import Choreography.Timestamps

/-!
# The wire format

An envelope between services : the producer's JSON, the JSONB column of the outbox that it is
stored in, and the parser of the service that reads it. The three producers format the clock in
their own ways, and Go reads each of the texts as the instant that was formatted, up to the
producer's precision (`parseRFC3339_occurredAt`). JSONB rejects texts with a NUL, drops duplicate
keys and sorts the keys, which leaves every other value the same (`exists_jsonb`). So what any
of the three services sends, each of the three reads (`parse_jsonb_encode`).

JSON texts are not modelled : a message is the JSON value that its text denotes.
-/

namespace Choreography

/-! ## The clock -/

/-- An instant of the years 1970 to 9999, in nanoseconds. -/
structure Instant where
  ns : ℕ
  lt : ns < secondsTo10000 * 1000000000

namespace Instant

def secs (t : Instant) : ℕ := t.ns / 1000000000

def nsec (t : Instant) : ℕ := t.ns % 1000000000

theorem secs_lt (t : Instant) : t.secs < secondsTo10000 :=
  Nat.div_lt_of_lt_mul (by rw [mul_comm]; exact t.lt)

theorem nsec_lt (t : Instant) : t.nsec < 1000000000 := Nat.mod_lt _ (by decide)

end Instant

/-- `time.Time` as JSON : nine digits, without the zeros at the end. -/
def OrderService.marshalTime (t : Instant) : String :=
  .ofList (secondText t.secs ++
    (fractionText ((digits 9 t.nsec).rdropWhile (· = '0')) ++ ['Z']))

/-- `datetime.now(timezone.utc).isoformat()` : microseconds, left out when there are none. -/
def PaymentService.isoformat (t : Instant) : String :=
  let us := t.nsec / 1000
  .ofList (secondText t.secs ++
    (fractionText (if us = 0 then [] else digits 6 us) ++ ['+', '0', '0', ':', '0', '0']))

/-- `rfc3339_now` : always three digits. -/
def InventoryService.rfc3339Now (t : Instant) : String :=
  let ms := t.nsec / 1000000
  .ofList (secondText t.secs ++ ('.' :: digits 3 ms ++ ['Z']))

/-- The text of `occurredAt`. -/
def Service.occurredAt : Service → Instant → String
  | .order => OrderService.marshalTime
  | .payment => PaymentService.isoformat
  | .inventory => InventoryService.rfc3339Now

/-- What a service's clock counts in, in nanoseconds. -/
def Service.precision : Service → ℕ
  | .order => 1
  | .payment => 1000
  | .inventory => 1000000

theorem nul_notMem_digits (width n : ℕ) : '\x00' ∉ digits width n := by
  intro h
  exact absurd (List.all_eq_true.mp (all_isDigit_digits width n) _ h) (by decide)

theorem nul_notMem_secondText (secs : ℕ) : '\x00' ∉ secondText secs := by
  simp [secondText, nul_notMem_digits]

theorem nul_notMem_fractionText {ds : List Char} (h : '\x00' ∉ ds) :
    '\x00' ∉ fractionText ds := by
  unfold fractionText
  split
  · exact List.not_mem_nil
  · simpa using h

theorem hasNul_occurredAt (svc : Service) (t : Instant) : hasNul (svc.occurredAt t) = false := by
  have htext : ∀ ds zone : List Char, '\x00' ∉ ds → '\x00' ∉ zone →
      hasNul (.ofList (secondText t.secs ++ (fractionText ds ++ zone))) = false := by
    intro ds zone hds hzone
    simp [hasNul, nul_notMem_secondText, nul_notMem_fractionText hds, hzone]
  cases svc with
  | order =>
    exact htext _ _ (fun h => nul_notMem_digits 9 t.nsec ((List.rdropWhile_prefix _ _).subset h))
      (by decide)
  | payment =>
    refine htext (if t.nsec / 1000 = 0 then [] else digits 6 (t.nsec / 1000)) _ ?_ (by decide)
    split
    · exact List.not_mem_nil
    · exact nul_notMem_digits _ _
  | inventory => exact htext (digits 3 (t.nsec / 1000000)) _ (nul_notMem_digits _ _) (by decide)

theorem isDigit_rdropWhile_digits (width n : ℕ) (p : Char → Bool) :
    ((digits width n).rdropWhile p).all Char.isDigit = true := by
  have hall := List.all_eq_true.mp (all_isDigit_digits width n)
  exact List.all_eq_true.mpr fun c hc => hall c ((List.rdropWhile_prefix _ _).subset hc)

/-- Go reads every service's `occurredAt` as the instant, up to the service's precision. -/
theorem parseRFC3339_occurredAt (svc : Service) (t : Instant) :
    parseRFC3339 (svc.occurredAt t).toList =
      some ((t.ns / svc.precision * svc.precision : ℕ) : ℤ) := by
  have hlt := t.nsec_lt
  have hsum : t.secs * 1000000000 + t.nsec = t.ns := Nat.div_add_mod' _ _
  cases svc with
  | order =>
    have hlen : ((digits 9 t.nsec).rdropWhile (· = '0')).length ≤ 9 := by
      simpa using (List.rdropWhile_prefix (· = '0') (digits 9 t.nsec)).length_le
    have hvalue := digitsValue_rdropWhile_zero (digits 9 t.nsec)
    rw [length_digits, digitsValue_digits (by omega)] at hvalue
    rw [Service.occurredAt, OrderService.marshalTime, String.toList_ofList,
      parseRFC3339_eq_some t.secs_lt hlen (isDigit_rdropWhile_digits _ _ _) (.inl rfl), hvalue,
      hsum, Service.precision, Nat.div_one, mul_one]
  | payment =>
    have hvalue : t.secs * 1000000000 + t.nsec / 1000 * 10 ^ (9 - 6) = t.ns / 1000 * 1000 := by
      omega
    simp only [Service.occurredAt, PaymentService.isoformat, String.toList_ofList,
      Service.precision]
    by_cases hzero : t.nsec / 1000 = 0
    · rw [if_pos hzero, parseRFC3339_eq_some t.secs_lt (by decide) (by decide) (.inr rfl),
        ← hvalue, hzero]
      rfl
    · rw [if_neg hzero, parseRFC3339_eq_some t.secs_lt (by simp) (all_isDigit_digits _ _)
        (.inr rfl), digitsValue_digits (by omega), length_digits, ← hvalue]
  | inventory =>
    have hvalue : t.secs * 1000000000 + t.nsec / 1000000 * 10 ^ (9 - 3) =
        t.ns / 1000000 * 1000000 := by omega
    have hfraction : '.' :: digits 3 (t.nsec / 1000000) =
        fractionText (digits 3 (t.nsec / 1000000)) := rfl
    rw [Service.occurredAt, InventoryService.rfc3339Now, String.toList_ofList, hfraction,
      parseRFC3339_eq_some t.secs_lt (by simp) (all_isDigit_digits _ _) (.inl rfl),
      digitsValue_digits (by omega), length_digits, Service.precision, ← hvalue]

-- a millisecond and a half past midnight
example :
    Service.order.occurredAt ⟨1500000, by decide⟩ = "1970-01-01T00:00:00.0015Z" ∧
      Service.payment.occurredAt ⟨1500000, by decide⟩ = "1970-01-01T00:00:00.001500+00:00" ∧
      Service.inventory.occurredAt ⟨1500000, by decide⟩ = "1970-01-01T00:00:00.001Z" := by
  decide

/-! ## JSONB -/

namespace Json

/-- JSONB's order of keys : shorter ones first, then by their bytes. -/
def keyLt (a b : String) : Bool :=
  a.utf8ByteSize < b.utf8ByteSize || (a.utf8ByteSize = b.utf8ByteSize && a < b)

/-- Add a field in front of sorted ones. A field of the same key came later, and stays. -/
def insertField (key : String) (a : Json) : List (String × Json) → List (String × Json)
  | [] => [(key, a)]
  | f :: fields =>
    if f.1 = key then f :: fields
    else if keyLt key f.1 then (key, a) :: f :: fields
    else f :: insertField key a fields

mutual

/-- What a JSONB column holds of a value, or nothing if it rejects it. -/
def jsonb : Json → Option Json
  | .nonFinite => none
  | .str s => if hasNul s then none else some (.str s)
  | .arr items => (jsonbItems items).map .arr
  | .obj fields => (jsonbFields fields).map .obj
  | a => some a

def jsonbItems : List Json → Option (List Json)
  | [] => some []
  | a :: items => do
    let a ← jsonb a
    let items ← jsonbItems items
    return a :: items

def jsonbFields : List (String × Json) → Option (List (String × Json))
  | [] => some []
  | (key, a) :: fields => do
    let a ← jsonb a
    let fields ← jsonbFields fields
    if hasNul key then none else return insertField key a fields

end

mutual

/-- A JSON value over texts without NUL, whose objects have no key twice. -/
def valid : Json → Bool
  | .nonFinite => false
  | .str s => !hasNul s
  | .arr items => validItems items
  | .obj fields => validFields fields
  | _ => true

def validItems : List Json → Bool
  | [] => true
  | a :: items => valid a && validItems items

def validFields : List (String × Json) → Bool
  | [] => true
  | (key, a) :: fields =>
    !hasNul key && (field? key fields).isNone && valid a && validFields fields

end

mutual

/-- Equality of JSON values, in which the order of an object's keys does not matter. -/
def same : Json → Json → Bool
  | .null, .null => true
  | .bool a, .bool b => a = b
  | .num a, .num b => a = b
  | .str a, .str b => a = b
  | .arr a, .arr b => sameItems a b
  | .obj a, .obj b => a.length = b.length && sameFields a b
  | _, _ => false

def sameItems : List Json → List Json → Bool
  | [], [] => true
  | a :: as, b :: bs => same a b && sameItems as bs
  | _, _ => false

/-- Every field is one of the other object's. -/
def sameFields : List (String × Json) → List (String × Json) → Bool
  | [], _ => true
  | (key, a) :: fields, others =>
    (match field? key others with
      | some b => same a b
      | none => false) && sameFields fields others

end

theorem jsonb_str {s : String} (h : hasNul s = false) : (str s).jsonb = some (.str s) := by
  simp [jsonb, h]

theorem jsonb_obj {fields gs : List (String × Json)} (h : jsonbFields fields = some gs) :
    (obj fields).jsonb = some (.obj gs) := by
  rw [jsonb, h, Option.map_some]

theorem jsonbFields_cons {key : String} {a b : Json} {fields gs : List (String × Json)}
    (hkey : hasNul key = false) (ha : a.jsonb = some b) (hgs : jsonbFields fields = some gs) :
    jsonbFields ((key, a) :: fields) = some (insertField key b gs) := by
  simp [jsonbFields, hkey, ha, hgs]

/-- JSONB takes fields whose values it takes, and sorts them. -/
theorem jsonbFields_of_forall₂ {fields : List (String × Json)} {values : List Json}
    (h : List.Forall₂ (fun f b => f.2.jsonb = some b) fields values)
    (hkeys : ∀ key ∈ fields.map Prod.fst, hasNul key = false) :
    jsonbFields fields =
      some ((fields.zip values).foldr (fun p => insertField p.1.1 p.2) []) := by
  induction h with
  | nil => rfl
  | cons hb _ ih =>
    rw [List.map_cons, List.forall_mem_cons] at hkeys
    exact jsonbFields_cons hkeys.1 hb (ih hkeys.2)

theorem field?_cons (key : String) (f : String × Json) (fields : List (String × Json)) :
    field? key (f :: fields) = if f.1 = key then some f.2 else field? key fields := by
  by_cases h : f.1 = key <;> simp [field?, h]

theorem field?_cons_eq_none {key : String} {f : String × Json} {fields : List (String × Json)} :
    field? key (f :: fields) = none ↔ f.1 ≠ key ∧ field? key fields = none := by
  rw [field?_cons]
  split
  · next h => simp [h]
  · next h => simp [h]

theorem field?_insertField {key : String} {fields : List (String × Json)}
    (h : field? key fields = none) (a : Json) (k : String) :
    field? k (insertField key a fields) = if key = k then some a else field? k fields := by
  induction fields with
  | nil => rw [insertField, field?_cons]
  | cons f fields ih =>
    obtain ⟨hne, h⟩ := field?_cons_eq_none.mp h
    rw [insertField, if_neg hne]
    split
    · rw [field?_cons]
    · rw [field?_cons, ih h, field?_cons]
      by_cases hk : f.1 = k
      · rw [if_pos hk, if_pos hk, if_neg fun heq => hne (hk.trans heq.symm)]
      · rw [if_neg hk, if_neg hk]

theorem length_insertField {key : String} {fields : List (String × Json)}
    (h : field? key fields = none) (a : Json) :
    (insertField key a fields).length = fields.length + 1 := by
  induction fields with
  | nil => rfl
  | cons f fields ih =>
    obtain ⟨hne, h⟩ := field?_cons_eq_none.mp h
    rw [insertField, if_neg hne]
    split
    · rfl
    · rw [List.length_cons, ih h, List.length_cons]

/-- A field of another key does not change what the fields find. -/
theorem sameFields_insertField {key : String} {fields others : List (String × Json)}
    (hnew : field? key fields = none) (hothers : field? key others = none) (b : Json)
    (h : sameFields fields others = true) :
    sameFields fields (insertField key b others) = true := by
  induction fields with
  | nil => rfl
  | cons f fields ih =>
    obtain ⟨hne, hnew⟩ := field?_cons_eq_none.mp hnew
    rw [sameFields, Bool.and_eq_true] at h ⊢
    rw [field?_insertField hothers, if_neg (Ne.symm hne)]
    exact ⟨h.1, ih hnew h.2⟩

mutual

/-- JSONB takes every valid value, and holds the same value. -/
theorem exists_jsonb : ∀ a : Json, a.valid = true → ∃ b, a.jsonb = some b ∧ a.same b = true
  | .null, _ => ⟨.null, rfl, rfl⟩
  | .bool b, _ => ⟨.bool b, rfl, by simp [same]⟩
  | .num q, _ => ⟨.num q, rfl, by simp [same]⟩
  | .nonFinite, h => nomatch h
  | .str s, h => ⟨.str s, jsonb_str (by simpa [valid] using h), by simp [same]⟩
  | .arr items, h => by
    obtain ⟨bs, hbs, hsame⟩ := exists_jsonbItems items h
    exact ⟨.arr bs, by rw [jsonb, hbs, Option.map_some], hsame⟩
  | .obj fields, h => by
    obtain ⟨gs, hgs, hsame, hlen, -⟩ := exists_jsonbFields fields h
    exact ⟨.obj gs, jsonb_obj hgs, by simp [same, hlen, hsame]⟩

theorem exists_jsonbItems : ∀ items : List Json, validItems items = true →
    ∃ bs, jsonbItems items = some bs ∧ sameItems items bs = true
  | [], _ => ⟨[], rfl, rfl⟩
  | a :: items, h => by
    rw [validItems, Bool.and_eq_true] at h
    obtain ⟨b, hb, hsame⟩ := exists_jsonb a h.1
    obtain ⟨bs, hbs, hsames⟩ := exists_jsonbItems items h.2
    exact ⟨b :: bs, by simp [jsonbItems, hb, hbs], by simp [sameItems, hsame, hsames]⟩

/-- The keys stay, too : what a later field adds is new. -/
theorem exists_jsonbFields : ∀ fields : List (String × Json), validFields fields = true →
    ∃ gs, jsonbFields fields = some gs ∧ sameFields fields gs = true ∧
      fields.length = gs.length ∧ ∀ key, field? key fields = none → field? key gs = none
  | [], _ => ⟨[], rfl, rfl, rfl, fun _ _ => rfl⟩
  | (key, a) :: fields, h => by
    simp only [validFields, Bool.and_eq_true, Bool.not_eq_true', Option.isNone_iff_eq_none] at h
    obtain ⟨⟨⟨hnul, hnew⟩, ha⟩, hfields⟩ := h
    obtain ⟨b, hb, hsame⟩ := exists_jsonb a ha
    obtain ⟨gs, hgs, hsames, hlen, hkeys⟩ := exists_jsonbFields fields hfields
    have hothers := hkeys key hnew
    refine ⟨insertField key b gs, jsonbFields_cons hnul hb hgs, ?_, ?_, ?_⟩
    · rw [sameFields, field?_insertField hothers, if_pos rfl, Bool.and_eq_true]
      exact ⟨hsame, sameFields_insertField hnew hothers b hsames⟩
    · rw [length_insertField hothers, List.length_cons, hlen]
    · intro k hk
      obtain ⟨hne, hk⟩ := field?_cons_eq_none.mp hk
      rw [field?_insertField hothers, if_neg hne, hkeys k hk]

end

end Json

/-! ## Producers -/

/-- The fields of an envelope, in the order of the Go struct and of the Python dictionary. -/
def Envelope.fields (e : Envelope) : List (String × Json) :=
  [("eventId", .str e.eventId), ("eventType", .str e.eventType),
    ("schemaVersion", .num e.schemaVersion), ("occurredAt", .str e.occurredAt),
    ("sagaId", .str e.sagaId), ("idempotencyKey", .str e.idempotencyKey),
    ("traceparent", .str e.traceparent), ("data", e.data)]

/-- `Envelope.Marshal`. -/
def OrderService.marshal (e : Envelope) : Json := .obj e.fields

/-- `Envelope.to_json` in Python. -/
def PaymentService.toJson (e : Envelope) : Json := .obj e.fields

/-- The fields of an envelope in the order of a sorted map. -/
def Envelope.sortedFields (e : Envelope) : List (String × Json) :=
  [("data", e.data), ("eventId", .str e.eventId), ("eventType", .str e.eventType),
    ("idempotencyKey", .str e.idempotencyKey), ("occurredAt", .str e.occurredAt),
    ("sagaId", .str e.sagaId), ("schemaVersion", .num e.schemaVersion),
    ("traceparent", .str e.traceparent)]

/-- `Envelope::to_json` in C++, whose JSON objects are sorted maps. -/
def InventoryService.toJson (e : Envelope) : Json := .obj e.sortedFields

/-- An envelope as the service sends it. -/
def Service.encode : Service → Envelope → Json
  | .order => OrderService.marshal
  | .payment => PaymentService.toJson
  | .inventory => InventoryService.toJson

/-- An envelope as a JSONB column holds it, with the data that the column holds. -/
def Envelope.stored (e : Envelope) (data : Json) : Json :=
  .obj [("data", data), ("sagaId", .str e.sagaId), ("eventId", .str e.eventId),
    ("eventType", .str e.eventType), ("occurredAt", .str e.occurredAt),
    ("traceparent", .str e.traceparent), ("schemaVersion", .num e.schemaVersion),
    ("idempotencyKey", .str e.idempotencyKey)]

/-- An envelope over texts without NUL. -/
structure Envelope.Clean (e : Envelope) : Prop where
  eventId : hasNul e.eventId = false
  eventType : hasNul e.eventType = false
  occurredAt : hasNul e.occurredAt = false
  sagaId : hasNul e.sagaId = false
  idempotencyKey : hasNul e.idempotencyKey = false
  traceparent : hasNul e.traceparent = false

/-- The column holds the envelopes of all three services alike. -/
theorem jsonb_encode (svc : Service) {e : Envelope} (h : e.Clean) {data : Json}
    (hdata : e.data.jsonb = some data) : (svc.encode e).jsonb = some (e.stored data) := by
  have hversion : (Json.num e.schemaVersion).jsonb = some (.num e.schemaVersion) := rfl
  have hdeclared : (Json.obj e.fields).jsonb = some (e.stored data) := by
    have hnames : ∀ key ∈ ["eventId", "eventType", "schemaVersion", "occurredAt", "sagaId",
        "idempotencyKey", "traceparent", "data"], hasNul key = false := by decide
    have hvalues : List.Forall₂ (fun f b => f.2.jsonb = some b) e.fields [.str e.eventId,
        .str e.eventType, .num e.schemaVersion, .str e.occurredAt, .str e.sagaId,
        .str e.idempotencyKey, .str e.traceparent, data] :=
      .cons (Json.jsonb_str h.eventId) <| .cons (Json.jsonb_str h.eventType) <|
        .cons hversion <| .cons (Json.jsonb_str h.occurredAt) <|
        .cons (Json.jsonb_str h.sagaId) <| .cons (Json.jsonb_str h.idempotencyKey) <|
        .cons (Json.jsonb_str h.traceparent) <| .cons hdata .nil
    exact Json.jsonb_obj (Json.jsonbFields_of_forall₂ hvalues hnames)
  have hsorted : (InventoryService.toJson e).jsonb = some (e.stored data) := by
    have hnames : ∀ key ∈ ["data", "eventId", "eventType", "idempotencyKey", "occurredAt",
        "sagaId", "schemaVersion", "traceparent"], hasNul key = false := by decide
    have hvalues : List.Forall₂ (fun f b => f.2.jsonb = some b) e.sortedFields [data,
        .str e.eventId, .str e.eventType, .str e.idempotencyKey, .str e.occurredAt,
        .str e.sagaId, .num e.schemaVersion, .str e.traceparent] :=
      .cons hdata <| .cons (Json.jsonb_str h.eventId) <| .cons (Json.jsonb_str h.eventType) <|
        .cons (Json.jsonb_str h.idempotencyKey) <| .cons (Json.jsonb_str h.occurredAt) <|
        .cons (Json.jsonb_str h.sagaId) <| .cons hversion <|
        .cons (Json.jsonb_str h.traceparent) .nil
    exact Json.jsonb_obj (Json.jsonbFields_of_forall₂ hvalues hnames)
  cases svc with
  | order => exact hdeclared
  | payment => exact hdeclared
  | inventory => exact hsorted

/-! ## Parsers -/

namespace OrderService

/-- Go's `Envelope`, with the time in nanoseconds since 1970. -/
structure Parsed where
  eventId : String := ""
  eventType : String := ""
  schemaVersion : ℤ := 0
  /-- At first Go's zero time, the first of January of the year 1. -/
  occurredAt : ℤ := -62135596800000000000
  sagaId : String := ""
  idempotencyKey : String := ""
  traceparent : String := ""
  /-- The raw message, nil without a `data` field. -/
  data : Option Json := none
  deriving DecidableEq

/-- The names in the struct's tags. -/
def fieldNames : List String :=
  ["eventId", "eventType", "schemaVersion", "occurredAt", "sagaId", "idempotencyKey",
    "traceparent", "data"]

section Unmarshal

-- How `encoding/json` folds the case of a name, and `time.Parse(time.RFC3339, s)`, which Go
-- asks about the texts that `parseRFC3339` rejects.
variable (foldName : String → String) (parseLayout : String → Option ℤ)

/-- The field that a key sets : the one of that name, else one that differs in case. -/
def fieldOf (key : String) : Option String :=
  if key ∈ fieldNames then some key
  else fieldNames.find? fun name => foldName name = foldName key

/-- A JSON value into a `string` field; null leaves the field as it is. -/
def decodeString (old : String) : Json → Option String
  | .str s => some s
  | .null => some old
  | _ => none

/-- A JSON value into an `int` field. -/
def decodeInt (old : ℤ) : Json → Option ℤ
  | .num q => if q.den = 1 ∧ -2 ^ 63 ≤ q.num ∧ q.num < 2 ^ 63 then some q.num else none
  | .null => some old
  | _ => none

/-- `Time.UnmarshalJSON`. -/
def decodeTime (old : ℤ) : Json → Option ℤ
  | .str s => (parseRFC3339 s.toList).orElse fun _ => parseLayout s
  | .null => some old
  | _ => none

/-- Decode one field of the object. -/
def decodeField (e : Parsed) (f : String × Json) : Option Parsed :=
  match fieldOf foldName f.1 with
  | some "eventId" => (decodeString e.eventId f.2).map fun s => { e with eventId := s }
  | some "eventType" => (decodeString e.eventType f.2).map fun s => { e with eventType := s }
  | some "schemaVersion" =>
    (decodeInt e.schemaVersion f.2).map fun n => { e with schemaVersion := n }
  | some "occurredAt" =>
    (decodeTime parseLayout e.occurredAt f.2).map fun t => { e with occurredAt := t }
  | some "sagaId" => (decodeString e.sagaId f.2).map fun s => { e with sagaId := s }
  | some "idempotencyKey" =>
    (decodeString e.idempotencyKey f.2).map fun s => { e with idempotencyKey := s }
  | some "traceparent" =>
    (decodeString e.traceparent f.2).map fun s => { e with traceparent := s }
  | some "data" => some { e with data := some f.2 }
  | _ => some e

/-- `event.Parse`, with `none` for an error. -/
def parse : Json → Option Parsed
  | .obj fields => fields.foldlM (decodeField foldName parseLayout) {}
  | .null => some {}
  | _ => none

/-- Go reads the stored envelope, with what it reads of the time. -/
theorem parse_stored {e : Envelope} (hversion : e.schemaVersion = schemaVersion) {t : ℤ}
    (htime : parseRFC3339 e.occurredAt.toList = some t) (data : Json) :
    parse foldName parseLayout (e.stored data) = some
      { eventId := e.eventId
        eventType := e.eventType
        schemaVersion := e.schemaVersion
        occurredAt := t
        sagaId := e.sagaId
        idempotencyKey := e.idempotencyKey
        traceparent := e.traceparent
        data := some data } := by
  have hint : decodeInt 0 (.num schemaVersion) = some schemaVersion := rfl
  simp +decide only [parse, Envelope.stored, List.foldlM_cons, List.foldlM_nil, decodeField,
    fieldOf, if_true, decodeString, decodeTime, htime, hversion, hint, Option.orElse_some,
    Option.map_some, Option.bind_eq_bind, Option.bind_some, Option.pure_def]

end Unmarshal

end OrderService

/-- What a parser that keeps the last of duplicate keys finds under a key. -/
def Json.last? (key : String) (fields : List (String × Json)) : Option Json :=
  Json.field? key fields.reverse

namespace PaymentService

/-- `envelope.parse`, with `none` for the `AttributeError` of a value without `get`. -/
def parse : Json → Option Parsed
  | .obj fields =>
    let get key default := (Json.last? key fields).getD default
    some
      { eventId := get "eventId" (.str "")
        eventType := get "eventType" (.str "")
        schemaVersion := get "schemaVersion" (.num schemaVersion)
        occurredAt := get "occurredAt" (.str "")
        sagaId := get "sagaId" (.str "")
        idempotencyKey := get "idempotencyKey" (.str "")
        traceparent := get "traceparent" (.str "")
        data := get "data" (.obj []) }
  | _ => none

theorem parse_stored (e : Envelope) (data : Json) : parse (e.stored data) = some
    { eventId := .str e.eventId
      eventType := .str e.eventType
      schemaVersion := .num e.schemaVersion
      occurredAt := .str e.occurredAt
      sagaId := .str e.sagaId
      idempotencyKey := .str e.idempotencyKey
      traceparent := .str e.traceparent
      data := data } :=
  rfl

end PaymentService

namespace InventoryService

/-- The `Envelope` of C++ before its fields are set. -/
def emptyEnvelope : Envelope := ⟨"", "", schemaVersion, "", "", "", "", .obj []⟩

section Parse

-- What C++ makes of a number whose whole part is no `int` : an integer is reduced modulo 2^32, and
-- the conversion of a floating number is undefined.
variable (wide : ℚ → ℤ)

/-- A number as an `int`, without its fraction. -/
def toInt (q : ℚ) : ℤ :=
  if -2 ^ 31 ≤ q.num.tdiv q.den ∧ q.num.tdiv q.den < 2 ^ 31 then q.num.tdiv q.den else wide q

/-- `obj.value(key, default)` of an `int`. Booleans are numbers. -/
def intValue (default : ℤ) : Option Json → Except Thrown ℤ
  | none => .ok default
  | some (.num q) => .ok (toInt wide q)
  | some (.bool b) => .ok (if b then 1 else 0)
  | some _ => .error .typeError

/-- `event::parse`. -/
def parse : Json → Except Thrown Envelope
  | .obj fields => do
    -- duplicate keys : the last one is in the map
    let obj := Json.obj fields.reverse
    let eventId ← dataValue obj "eventId" ""
    let eventType ← dataValue obj "eventType" ""
    let version ← intValue wide schemaVersion (Json.last? "schemaVersion" fields)
    let occurredAt ← dataValue obj "occurredAt" ""
    let sagaId ← dataValue obj "sagaId" ""
    let idempotencyKey ← dataValue obj "idempotencyKey" ""
    let traceparent ← dataValue obj "traceparent" ""
    let data := (Json.last? "data" fields).getD (.obj [])
    return ⟨eventId, eventType, version, occurredAt, sagaId, idempotencyKey, traceparent, data⟩
  | _ => .ok emptyEnvelope

theorem parse_stored {e : Envelope} (hversion : e.schemaVersion = schemaVersion) (data : Json) :
    parse wide (e.stored data) = .ok { e with data := data } := by
  obtain ⟨eventId, eventType, version, occurredAt, sagaId, idempotencyKey, traceparent, old⟩ := e
  have hint : intValue wide schemaVersion (some (.num schemaVersion)) = .ok schemaVersion := rfl
  obtain rfl : version = schemaVersion := hversion
  simp [parse, Envelope.stored, Json.last?, dataValue, Json.field?, hint, bind, Except.bind,
    pure, Except.pure]

end Parse

end InventoryService

/-! ## From any service to any service -/

/-- An envelope that a service builds : the instant it reads from its clock, the texts, and an
object of data. -/
structure Outgoing where
  service : Service
  instant : Instant
  stamp : Stamp
  eventType : String
  sagaId : String
  traceparent : String
  fields : List (String × Json)
  eventType_text : hasNul eventType = false
  sagaId_text : hasNul sagaId = false
  traceparent_text : hasNul traceparent = false
  fields_valid : (Json.obj fields).valid = true

/-- The stamp with the clock's text. -/
def Stamp.at (stamp : Stamp) (occurredAt : String) (h : hasNul occurredAt = false) : Stamp where
  eventId := stamp.eventId
  idempotencyKey := stamp.idempotencyKey
  occurredAt := occurredAt
  createdAt := stamp.createdAt
  rowId := stamp.rowId
  traceparent := stamp.traceparent
  text := by
    simp [h, stamp.hasNul_eventId, stamp.hasNul_idempotencyKey, stamp.hasNul_traceparent]

/-- The envelope that the event's service builds. -/
def Outgoing.envelope (ev : Outgoing) : Envelope :=
  .new (ev.stamp.at (ev.service.occurredAt ev.instant) (hasNul_occurredAt _ _)) ev.eventType
    ev.sagaId ev.traceparent (.obj ev.fields)

theorem Outgoing.clean (ev : Outgoing) : ev.envelope.Clean :=
  ⟨ev.stamp.hasNul_eventId, ev.eventType_text, hasNul_occurredAt _ _, ev.sagaId_text,
    ev.stamp.hasNul_idempotencyKey, ev.traceparent_text⟩

/-- What any service sends is stored, and each of the three services reads it : every text, the
version and the data as they were sent, and `occurredAt` up to the sender's precision. -/
theorem parse_jsonb_encode (ev : Outgoing) (foldName : String → String)
    (parseLayout : String → Option ℤ) (wide : ℚ → ℤ) :
    ∃ stored data, (ev.service.encode ev.envelope).jsonb = some stored ∧
      ev.envelope.data.same data = true ∧
      OrderService.parse foldName parseLayout stored = some
        { eventId := ev.envelope.eventId
          eventType := ev.envelope.eventType
          schemaVersion := ev.envelope.schemaVersion
          occurredAt := (ev.instant.ns / ev.service.precision * ev.service.precision : ℕ)
          sagaId := ev.envelope.sagaId
          idempotencyKey := ev.envelope.idempotencyKey
          traceparent := ev.envelope.traceparent
          data := some data } ∧
      PaymentService.parse stored = some
        { eventId := .str ev.envelope.eventId
          eventType := .str ev.envelope.eventType
          schemaVersion := .num ev.envelope.schemaVersion
          occurredAt := .str ev.envelope.occurredAt
          sagaId := .str ev.envelope.sagaId
          idempotencyKey := .str ev.envelope.idempotencyKey
          traceparent := .str ev.envelope.traceparent
          data := data } ∧
      InventoryService.parse wide stored = .ok { ev.envelope with data := data } := by
  obtain ⟨data, hdata, hsame⟩ := Json.exists_jsonb ev.envelope.data ev.fields_valid
  refine ⟨ev.envelope.stored data, data, jsonb_encode _ ev.clean hdata, hsame, ?_, ?_, ?_⟩
  · have htime : parseRFC3339 ev.envelope.occurredAt.toList =
        some ((ev.instant.ns / ev.service.precision * ev.service.precision : ℕ) : ℤ) :=
      parseRFC3339_occurredAt ev.service ev.instant
    exact OrderService.parse_stored foldName parseLayout rfl htime data
  · exact PaymentService.parse_stored ev.envelope data
  · exact InventoryService.parse_stored wide rfl data

end Choreography
