import Choreography.Bytes
import Choreography.Wire

/-!
# The ids of Inventory's events

`uuid_v4` writes two random words as sixteen bytes, sets the version and the variant, and writes
the bytes as digits with four hyphens. `toList_uuidV4` is the text as a list of characters, and
`bytesOf_inj` what the sixteen bytes tell about the draw : every bit but the six that are set. So
the text has the form of a version 4 UUID, and two texts are equal exactly when the draws agree
on the other 122 bits (`uuidV4_faithful`).

`make_envelope` draws an event id and an idempotency key in this way, and what it makes is an
event that every service reads (`exists_outgoing_makeEnvelope`).
-/

namespace Choreography.InventoryService

/-! ## The generator -/

/-- What the engine gives for one id. -/
structure Draw where
  hi : BitVec 64
  lo : BitVec 64
  deriving DecidableEq

/-- The loop that cuts the two words into bytes. -/
def drawBytes (d : Draw) : List (BitVec 8) :=
  (List.range 8).foldl (fun bytes i => (bytes.set i (byte d.hi i)).set (i + 8) (byte d.lo i))
    (List.replicate 16 0)

/-- The bytes with the version and the variant set. -/
def bytesOf (d : Draw) : List (BitVec 8) :=
  ((drawBytes d).modify 6 fun b => b &&& 0x0F ||| 0x40).modify 8 fun b => b &&& 0x3F ||| 0x80

def kHex : List Char := "0123456789abcdef".toList

/-- `kHex[n]`, where the array ends in a NUL. -/
def hexDigit (n : BitVec 8) : Char := kHex.getD n.toNat '\x00'

/-- One round of the loop that writes the bytes. -/
def pushByte (out : String) (p : BitVec 8 × ℕ) : String :=
  let out := if p.2 = 4 ∨ p.2 = 6 ∨ p.2 = 8 ∨ p.2 = 10 then out.push '-' else out
  (out.push (hexDigit (p.1 >>> 4))).push (hexDigit (p.1 &&& 0x0F))

def uuidV4 (d : Draw) : String := (bytesOf d).zipIdx.foldl pushByte ""

example : uuidV4 ⟨0x0706050403020100, 0x0f0e0d0c0b0a0908⟩ =
    "00010203-0405-4607-8809-0a0b0c0d0e0f" := by decide

/-! ## The digits of a byte -/

theorem toNat_and_15 (b : BitVec 8) : (b &&& 0x0F).toNat = b.toNat % 16 := by
  rw [BitVec.toNat_and]
  exact Nat.and_two_pow_sub_one_eq_mod b.toNat 4

theorem toNat_shift_4 (b : BitVec 8) : (b >>> 4).toNat = b.toNat / 16 := by
  rw [BitVec.toNat_ushiftRight, Nat.shiftRight_eq_div_pow]

theorem hexDigit_eq_getElem {x : BitVec 8} (hx : x.toNat < kHex.length) :
    hexDigit x = kHex[x.toNat] := by
  rw [hexDigit, List.getD_eq_getElem _ _ hx]

theorem hexDigit_inj {x y : BitVec 8} (hx : x.toNat < kHex.length) (hy : y.toNat < kHex.length)
    (h : hexDigit x = hexDigit y) : x = y := by
  have hnodup : kHex.Nodup := by decide
  rw [hexDigit_eq_getElem hx, hexDigit_eq_getElem hy, hnodup.getElem_inj_iff] at h
  exact BitVec.eq_of_toNat_eq h

theorem hexDigit_mem {x : BitVec 8} (hx : x.toNat < kHex.length) : hexDigit x ∈ kHex := by
  rw [hexDigit_eq_getElem hx]
  exact List.getElem_mem _

theorem shift_4_lt (b : BitVec 8) : (b >>> 4).toNat < kHex.length := by
  have hlt : b.toNat / 16 < 16 := by
    have := b.isLt
    omega
  rw [toNat_shift_4]
  exact hlt

theorem and_15_lt (b : BitVec 8) : (b &&& 0x0F).toNat < kHex.length := by
  rw [toNat_and_15]
  exact Nat.mod_lt _ (by decide)

/-- The two digits of a byte tell the byte. -/
theorem eq_of_hexDigits {b b' : BitVec 8} (hhigh : hexDigit (b >>> 4) = hexDigit (b' >>> 4))
    (hlow : hexDigit (b &&& 0x0F) = hexDigit (b' &&& 0x0F)) : b = b' := by
  have h₁ := congrArg BitVec.toNat (hexDigit_inj (shift_4_lt b) (shift_4_lt b') hhigh)
  have h₂ := congrArg BitVec.toNat (hexDigit_inj (and_15_lt b) (and_15_lt b') hlow)
  rw [toNat_shift_4, toNat_shift_4] at h₁
  rw [toNat_and_15, toNat_and_15] at h₂
  exact BitVec.eq_of_toNat_eq (by omega)

/-! ## The text -/

/-- What one round writes. -/
def byteText (i : ℕ) (b : BitVec 8) : List Char :=
  (if i = 4 ∨ i = 6 ∨ i = 8 ∨ i = 10 then ['-'] else []) ++
    [hexDigit (b >>> 4), hexDigit (b &&& 0x0F)]

theorem toList_pushByte (out : String) (p : BitVec 8 × ℕ) :
    (pushByte out p).toList = out.toList ++ byteText p.2 p.1 := by
  unfold pushByte byteText
  split_ifs <;> simp

theorem toList_uuidV4 (d : Draw) : (uuidV4 d).toList = blocks byteText 0 (bytesOf d) := by
  have hloop : ∀ (ps : List (BitVec 8 × ℕ)) (out : String), (ps.foldl pushByte out).toList =
      ps.foldl (fun out p => out ++ byteText p.2 p.1) out.toList := by
    intro ps
    induction ps with
    | nil => exact fun _ => rfl
    | cons p ps ih =>
      intro out
      rw [List.foldl_cons, List.foldl_cons, ih, toList_pushByte]
  rw [uuidV4, hloop, foldl_zipIdx_append, String.toList_empty, List.nil_append]

-- From here on an id is known by its list of characters.
attribute [irreducible] uuidV4

/-- The digits of a byte end where they should, so the text tells the bytes. -/
theorem uuidV4_eq_iff_bytesOf (d d' : Draw) : uuidV4 d = uuidV4 d' ↔ bytesOf d = bytesOf d' := by
  rw [← String.toList_inj, toList_uuidV4, toList_uuidV4]
  refine blocks_inj (fun i b => by simp [byteText]) fun i b b' r r' h => ?_
  simp only [byteText, List.append_assoc, List.append_cancel_left_eq, List.cons_append,
    List.nil_append, List.cons.injEq] at h
  exact ⟨eq_of_hexDigits h.1 h.2.1, h.2.2⟩

/-! ## The bytes -/

/-- The loop that fills the array, from any two words. -/
theorem foldl_set_eq (f g : ℕ → BitVec 8) :
    (List.range 8).foldl (fun bytes i => (bytes.set i (f i)).set (i + 8) (g i))
      (List.replicate 16 0) =
      [f 0, f 1, f 2, f 3, f 4, f 5, f 6, f 7, g 0, g 1, g 2, g 3, g 4, g 5, g 6, g 7] := by
  simp [List.range_succ, List.replicate_succ]

theorem bytesOf_eq (d : Draw) : bytesOf d =
    [byte d.hi 0, byte d.hi 1, byte d.hi 2, byte d.hi 3, byte d.hi 4, byte d.hi 5,
      byte d.hi 6 &&& 0x0F ||| 0x40, byte d.hi 7,
      byte d.lo 0 &&& 0x3F ||| 0x80, byte d.lo 1, byte d.lo 2, byte d.lo 3, byte d.lo 4,
      byte d.lo 5, byte d.lo 6, byte d.lo 7] := by
  rw [bytesOf, drawBytes, foldl_set_eq]
  rfl

/-- The bits of `hi` that each byte keeps. -/
def hiMask (i : ℕ) : BitVec 8 := if i = 6 then 0x0F else 0xFF

/-- The bits of `lo` that each byte keeps. -/
def loMask (i : ℕ) : BitVec 8 := if i = 0 then 0x3F else 0xFF

/-- The draws agree on every bit but the bits 52 to 55 of `hi` and the bits 6 and 7 of `lo`. -/
structure Draw.Agrees (d d' : Draw) : Prop where
  hi : ∀ p < 64, ¬(52 ≤ p ∧ p ≤ 55) → d.hi.getLsbD p = d'.hi.getLsbD p
  lo : ∀ p < 64, ¬(6 ≤ p ∧ p ≤ 7) → d.lo.getLsbD p = d'.lo.getLsbD p

theorem bytesOf_eq_iff_masks (d d' : Draw) : bytesOf d = bytesOf d' ↔
    (∀ i < 8, byte d.hi i &&& hiMask i = byte d'.hi i &&& hiMask i) ∧
      ∀ i < 8, byte d.lo i &&& loMask i = byte d'.lo i &&& loMask i := by
  have hones : ∀ b : BitVec 8, b &&& 0xFF = b := fun b => BitVec.and_allOnes
  rw [bytesOf_eq, bytesOf_eq]
  simp +decide only [List.cons.injEq, and_true, Nat.forall_lt_succ_right, hiMask, loMask, if_true,
    if_false, hones, Nat.not_lt_zero, false_implies, forall_const, true_and,
    and_or_eq_and_or_iff (show (0x40 : BitVec 8) &&& 0x0F = 0#8 by decide),
    and_or_eq_and_or_iff (show (0x80 : BitVec 8) &&& 0x3F = 0#8 by decide)]
  tauto

theorem bytesOf_inj (d d' : Draw) : bytesOf d = bytesOf d' ↔ d.Agrees d' := by
  have hhi : ∀ p < 64, ((hiMask (p / 8)).getLsbD (p % 8) = true ↔ ¬(52 ≤ p ∧ p ≤ 55)) := by decide
  have hlo : ∀ p < 64, ((loMask (p / 8)).getLsbD (p % 8) = true ↔ ¬(6 ≤ p ∧ p ≤ 7)) := by decide
  rw [bytesOf_eq_iff_masks, bytes_and_eq_iff, bytes_and_eq_iff]
  constructor
  · rintro ⟨h, h'⟩
    exact ⟨fun p hp hbit => h p hp ((hhi p hp).mpr hbit),
      fun p hp hbit => h' p hp ((hlo p hp).mpr hbit)⟩
  · rintro ⟨h, h'⟩
    exact ⟨fun p hp hbit => h p hp ((hhi p hp).mp hbit),
      fun p hp hbit => h' p hp ((hlo p hp).mp hbit)⟩

/-! ## The form of the text -/

/-- The form of a version 4 UUID. -/
structure VersionFour (s : String) : Prop where
  length : s.length = 36
  hyphens : ∀ i : ℕ, s.toList[i]? = some '-' ↔ i = 8 ∨ i = 13 ∨ i = 18 ∨ i = 23
  digits : ∀ i < 36, ¬(i = 8 ∨ i = 13 ∨ i = 18 ∨ i = 23) → ∃ c ∈ kHex, s.toList[i]? = some c
  version : s.toList[14]? = some '4'
  variant : ∃ c ∈ ['8', '9', 'a', 'b'], s.toList[19]? = some c

theorem length_uuidV4 (d : Draw) : (uuidV4 d).toList.length = 36 := by
  rw [toList_uuidV4, bytesOf_eq]
  rfl

theorem digits_uuidV4 (d : Draw) (i : ℕ) (hi : i < 36)
    (hdigit : ¬(i = 8 ∨ i = 13 ∨ i = 18 ∨ i = 23)) :
    ∃ c ∈ kHex, (uuidV4 d).toList[i]? = some c := by
  have hhigh : ∀ b : BitVec 8, hexDigit (b >>> 4) ∈ kHex := fun b => hexDigit_mem (shift_4_lt b)
  have hlow : ∀ b : BitVec 8, hexDigit (b &&& 0x0F) ∈ kHex := fun b => hexDigit_mem (and_15_lt b)
  rw [toList_uuidV4, bytesOf_eq]
  interval_cases i <;>
    first
    | exact ⟨_, hhigh _, rfl⟩
    | exact ⟨_, hlow _, rfl⟩
    | exact absurd (by decide) hdigit

theorem hyphens_uuidV4 (d : Draw) (i : ℕ) :
    (uuidV4 d).toList[i]? = some '-' ↔ i = 8 ∨ i = 13 ∨ i = 18 ∨ i = 23 := by
  constructor
  · intro h
    by_contra hdigit
    have hi : i < 36 := by
      rw [← length_uuidV4 d]
      exact (List.getElem?_eq_some_iff.mp h).1
    obtain ⟨c, hc, hget⟩ := digits_uuidV4 d i hi hdigit
    obtain rfl : '-' = c := Option.some.inj (h.symm.trans hget)
    exact absurd hc (by decide)
  · rw [toList_uuidV4, bytesOf_eq]
    rintro (rfl | rfl | rfl | rfl) <;> rfl

theorem versionFour_uuidV4 (d : Draw) : VersionFour (uuidV4 d) := by
  have hversion : ∀ b : BitVec 8, (b &&& 0x0F ||| 0x40) >>> 4 = 4#8 := by decide
  have hvariant : ∀ b : BitVec 8, (b &&& 0x3F ||| 0x80) >>> 4 ∈ [8#8, 9#8, 10#8, 11#8] := by decide
  have hfour : hexDigit 4#8 = '4' := by decide
  have hdigit : ∀ x ∈ [8#8, 9#8, 10#8, 11#8], hexDigit x ∈ ['8', '9', 'a', 'b'] := by decide
  constructor
  case length => exact length_uuidV4 d
  case hyphens => exact hyphens_uuidV4 d
  case digits => exact digits_uuidV4 d
  case version =>
    rw [toList_uuidV4, bytesOf_eq]
    refine congrArg some ?_
    rw [hversion (byte d.hi 6), hfour]
  case variant =>
    rw [toList_uuidV4, bytesOf_eq]
    exact ⟨_, hdigit _ (hvariant (byte d.lo 0)), rfl⟩

/-! ## Envelopes -/

/-- `make_envelope`, with the two draws and the clock. -/
def makeEnvelope (eventDraw keyDraw : Draw) (now : Instant) (eventType sagaId : String)
    (data : Json) (traceparent : String) : Envelope :=
  { eventId := uuidV4 eventDraw
    eventType := eventType
    schemaVersion := schemaVersion
    occurredAt := rfc3339Now now
    sagaId := sagaId
    idempotencyKey := uuidV4 keyDraw
    traceparent := traceparent
    data := data }

theorem hasNul_uuidV4 (d : Draw) : hasNul (uuidV4 d) = false := by
  rw [hasNul, List.contains_eq_mem, decide_eq_false_iff_not]
  intro hmem
  obtain ⟨i, hi, hget⟩ := List.mem_iff_getElem.mp hmem
  have hnul : (uuidV4 d).toList[i]? = some '\x00' := List.getElem?_eq_some_iff.mpr ⟨hi, hget⟩
  by_cases hhyphen : i = 8 ∨ i = 13 ∨ i = 18 ∨ i = 23
  · exact absurd (hnul.symm.trans ((hyphens_uuidV4 d i).mpr hhyphen)) (by decide)
  · obtain ⟨c, hc, hget'⟩ := digits_uuidV4 d i (hi.trans_eq (length_uuidV4 d)) hhyphen
    obtain rfl : '\x00' = c := Option.some.inj (hnul.symm.trans hget')
    exact absurd hc (by decide)

/-- What `make_envelope` makes of texts that PostgreSQL accepts is an event of Inventory, so that
`parse_jsonb_encode` is about it. -/
theorem exists_outgoing_makeEnvelope (eventDraw keyDraw : Draw) (now : Instant)
    {eventType sagaId traceparent : String} {fields : List (String × Json)}
    (heventType : hasNul eventType = false) (hsagaId : hasNul sagaId = false)
    (htraceparent : hasNul traceparent = false) (hfields : (Json.obj fields).valid = true) :
    ∃ ev : Outgoing, ev.service = .inventory ∧ ev.envelope =
      makeEnvelope eventDraw keyDraw now eventType sagaId (.obj fields) traceparent := by
  have htext : ∀ s ∈ [uuidV4 eventDraw, uuidV4 keyDraw, "", ""], hasNul s = false := by
    simp [hasNul_uuidV4, show hasNul "" = false from rfl]
  exact ⟨⟨.inventory, now, ⟨uuidV4 eventDraw, uuidV4 keyDraw, "", 0, 0, "", htext⟩, eventType,
    sagaId, traceparent, fields, heventType, hsagaId, htraceparent, hfields⟩, rfl, rfl⟩

/-- The ids of two events. -/
structure Collisions (d₁ d₂ d₁' d₂' : Draw) (e e' : Envelope) : Prop where
  eventId : e.eventId = e'.eventId ↔ d₁.Agrees d₁'
  idempotencyKey : e.idempotencyKey = e'.idempotencyKey ↔ d₂.Agrees d₂'

/-- Every draw gives a version 4 UUID, no random bit is lost, and event ids and idempotency
keys collide only when the draws do. -/
theorem uuidV4_faithful :
    (∀ d, VersionFour (uuidV4 d)) ∧ (∀ d d', uuidV4 d = uuidV4 d' ↔ d.Agrees d') ∧
      ∀ d₁ d₂ d₁' d₂' now now' eventType eventType' sagaId sagaId' data data' traceparent
        traceparent', Collisions d₁ d₂ d₁' d₂'
          (makeEnvelope d₁ d₂ now eventType sagaId data traceparent)
          (makeEnvelope d₁' d₂' now' eventType' sagaId' data' traceparent') := by
  have hinj : ∀ d d', uuidV4 d = uuidV4 d' ↔ d.Agrees d' := fun d d' => by
    rw [uuidV4_eq_iff_bytesOf, bytesOf_inj]
  refine ⟨versionFour_uuidV4, hinj, ?_⟩
  intros
  exact ⟨hinj _ _, hinj _ _⟩

end Choreography.InventoryService
