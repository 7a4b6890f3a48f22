import Choreography.Table

/-!
# What the services use of PostgreSQL

The three schemas have UUID, INT and TEXT columns, and a `processed_messages` table
with one row per idempotency key and consumer. `uuidIn` is the input conversion of a
UUID column, with its optional braces and hyphens, and `uuidOut` the `::text` cast.
`Int4` is an INT, whose arithmetic fails out of range (`Int4.ofInt?`). `markProcessed`
is `INSERT INTO processed_messages … ON CONFLICT DO NOTHING`, without a result when the
row was there.
-/

namespace Choreography

/-- How a statement fails and its transaction with it. -/
inductive SqlError
  /-- Text that the column's type does not accept. -/
  | invalidText
  /-- A primary key that is taken. -/
  | uniqueViolation
  /-- An INT result out of range. -/
  | outOfRange
  deriving DecidableEq, Repr

/-! ## UUID columns -/

abbrev Uuid := BitVec 128

instance lawfulBEqUuid : LawfulBEq Uuid := inferInstance

/-- The value of a hexadecimal digit. -/
def hexDigit? (c : Char) : Option ℕ :=
  if '0' ≤ c ∧ c ≤ '9' then some (c.toNat - '0'.toNat)
  else if 'a' ≤ c ∧ c ≤ 'f' then some (c.toNat - 'a'.toNat + 10)
  else if 'A' ≤ c ∧ c ≤ 'F' then some (c.toNat - 'A'.toNat + 10)
  else none

/-- A hyphen is skipped after every second byte, the last one excepted. -/
def skipHyphen (left : ℕ) : List Char → List Char
  | '-' :: cs => if left % 2 = 0 ∧ left ≠ 0 then cs else '-' :: cs
  | cs => cs

/-- Read `n` bytes of two digits each into `acc`, and return the rest of the text. -/
def uuidBytes : ℕ → ℕ → List Char → Option (ℕ × List Char)
  | 0, acc, cs => some (acc, cs)
  | n + 1, acc, a :: b :: cs =>
    match hexDigit? a, hexDigit? b with
    | some x, some y => uuidBytes n (acc * 256 + x * 16 + y) (skipHyphen n cs)
    | _, _ => none
  | _ + 1, _, _ => none

/-- A text as the value of a UUID column. -/
def uuidIn (s : String) : Option Uuid :=
  match s.toList with
  | '{' :: cs =>
    match uuidBytes 16 0 cs with
    | some (n, ['}']) => some (BitVec.ofNat 128 n)
    | _ => none
  | cs =>
    match uuidBytes 16 0 cs with
    | some (n, []) => some (BitVec.ofNat 128 n)
    | _ => none

def hexChar (n : ℕ) : Char :=
  if n < 10 then Char.ofNat ('0'.toNat + n) else Char.ofNat ('a'.toNat + (n - 10))

/-- The value of a UUID column as text. -/
def uuidOut (u : Uuid) : String :=
  String.ofList <| (List.range 32).flatMap fun i =>
    let digit := hexChar (u.toNat / 16 ^ (31 - i) % 16)
    if i = 8 ∨ i = 12 ∨ i = 16 ∨ i = 20 then ['-', digit] else [digit]

theorem uuidOut_ne_empty (u : Uuid) : uuidOut u ≠ "" := by
  intro h
  have hlist := congrArg String.toList h
  rw [uuidOut, String.toList_ofList] at hlist
  simpa using List.flatMap_eq_nil_iff.mp hlist 0

example : uuidIn "{A0EEBC999C0B4EF8-BB6D6BB9BD380A11}" =
    uuidIn (uuidOut 0xa0eebc999c0b4ef8bb6d6bb9bd380a11) := by decide

/-! ## INT columns -/

/-- A 32-bit integer. -/
structure Int4 where
  val : ℤ
  lower : -2147483648 ≤ val
  upper : val ≤ 2147483647
  deriving DecidableEq

namespace Int4

/-- The INT literal `n`, whose range is checked where it is written. -/
def lit (n : ℤ) (h : decide (-2147483648 ≤ n ∧ n ≤ 2147483647) = true := by exact Eq.refl true) :
    Int4 :=
  ⟨n, (of_decide_eq_true h).1, (of_decide_eq_true h).2⟩

/-- The integer `n` as an INT, if it is in range. -/
def ofInt? (n : ℤ) : Option Int4 :=
  if h : -2147483648 ≤ n ∧ n ≤ 2147483647 then some ⟨n, h.1, h.2⟩ else none

theorem ext_val {a b : Int4} (h : a.val = b.val) : a = b := by
  cases a
  cases b
  simpa using h

theorem ofInt?_eq_some {n : ℤ} {i : Int4} : ofInt? n = some i ↔ i.val = n := by
  unfold ofInt?
  split_ifs with h
  · rw [Option.some.injEq]
    exact ⟨fun hi => by rw [← hi], fun hi => ext_val hi.symm⟩
  · refine ⟨fun h' => by simp at h', ?_⟩
    rintro rfl
    exact absurd ⟨i.lower, i.upper⟩ h

@[simp] theorem ofInt?_val (i : Int4) : ofInt? i.val = some i :=
  ofInt?_eq_some.mpr rfl

theorem exists_ofInt? {n : ℤ} (h : -2147483648 ≤ n ∧ n ≤ 2147483647) : ∃ i, ofInt? n = some i :=
  ⟨⟨n, h.1, h.2⟩, dif_pos h⟩

end Int4

/-! ## TEXT columns and the idempotency table -/

/-- TEXT holds no NUL character. -/
def hasNul (s : String) : Bool := s.toList.contains '\x00'

/-- A text as a C string, which ends before the first NUL. -/
def cString (s : String) : String := .ofList (s.toList.takeWhile (· ≠ '\x00'))

/-- A text without NUL is its own C string. -/
theorem cString_of_hasNul {s : String} (h : hasNul s = false) : cString s = s := by
  have htake : s.toList.takeWhile (· ≠ '\x00') = s.toList := by
    rw [List.takeWhile_eq_self_iff]
    intro c hc
    refine decide_eq_true fun hnul => ?_
    rw [hasNul, List.contains_eq_mem, decide_eq_false_iff_not] at h
    exact h (hnul ▸ hc)
  rw [cString, htake, String.ofList_toList]

/-- The bytes of a UUID take no NUL from the text. -/
theorem nul_mem_of_uuidBytes {n acc m : ℕ} {cs rest : List Char}
    (h : uuidBytes n acc cs = some (m, rest)) (hnul : '\x00' ∈ cs) : '\x00' ∈ rest := by
  have hskip : ∀ left cs, '\x00' ∈ cs → '\x00' ∈ skipHyphen left cs := by
    intro left cs hcs
    unfold skipHyphen
    split
    · split_ifs
      · exact (List.mem_cons.mp hcs).resolve_left (by decide)
      · exact hcs
    · exact hcs
  induction n generalizing acc cs with
  | zero =>
    simp only [uuidBytes, Option.some.injEq, Prod.mk.injEq] at h
    exact h.2 ▸ hnul
  | succ n ih =>
    cases cs with
    | nil => simp [uuidBytes] at h
    | cons a cs =>
      cases cs with
      | nil => simp [uuidBytes] at h
      | cons b cs =>
        simp only [uuidBytes] at h
        split at h
        next x y hx hy =>
          have hdigit : ∀ {c : Char} {z : ℕ}, hexDigit? c = some z → '\x00' ≠ c := by
            rintro c z hz rfl
            have hnone : hexDigit? '\x00' = none := by decide
            simp [hnone] at hz
          refine ih h (hskip n cs ?_)
          simpa [hdigit hx, hdigit hy] using hnul
        · simp at h

/-- The text of a UUID has no NUL. -/
theorem hasNul_of_uuidIn {s : String} {u : Uuid} (h : uuidIn s = some u) : hasNul s = false := by
  rw [hasNul, List.contains_eq_mem, decide_eq_false_iff_not]
  intro hnul
  unfold uuidIn at h
  split at h
  next cs hcs =>
    rw [hcs] at hnul
    split at h
    next hbytes =>
      exact absurd (nul_mem_of_uuidBytes hbytes ((List.mem_cons.mp hnul).resolve_left (by decide)))
        (by decide)
    · simp at h
  next cs _ =>
    split at h
    next hbytes => exact absurd (nul_mem_of_uuidBytes hbytes hnul) List.not_mem_nil
    · simp at h

/-- The text of a UUID is its own C string. -/
theorem cString_of_uuidIn {s : String} {u : Uuid} (h : uuidIn s = some u) : cString s = s :=
  cString_of_hasNul (hasNul_of_uuidIn h)

theorem nul_ne_hexChar : ∀ n < 16, '\x00' ≠ hexChar n := by decide

theorem hasNul_uuidOut (u : Uuid) : hasNul (uuidOut u) = false := by
  rw [hasNul, List.contains_eq_mem, decide_eq_false_iff_not, uuidOut, String.toList_ofList,
    List.mem_flatMap]
  rintro ⟨i, -, hi⟩
  have hne := nul_ne_hexChar (u.toNat / 16 ^ (31 - i) % 16) (Nat.mod_lt _ (by decide))
  dsimp only at hi
  split_ifs at hi <;> simp [hne] at hi

/-- The rows (idempotency key, consumer) of `processed_messages`. -/
abbrev Processed := List (String × String)

instance lawfulBEqKey : LawfulBEq (String × String) := inferInstance

/-- Insert a dedupe marker, without a result if it was already there. -/
def markProcessed (processed : Processed) (key consumer : String) : Option Processed :=
  if (key, consumer) ∈ processed then none else some ((key, consumer) :: processed)

theorem markProcessed_eq_none {processed : Processed} {key consumer : String} :
    markProcessed processed key consumer = none ↔ (key, consumer) ∈ processed := by
  simp [markProcessed]

theorem markProcessed_eq_some {processed processed' : Processed} {key consumer : String} :
    markProcessed processed key consumer = some processed' ↔
      (key, consumer) ∉ processed ∧ processed' = (key, consumer) :: processed := by
  unfold markProcessed
  split_ifs with h
  · simp [h]
  · simp [h, eq_comm]

end Choreography
