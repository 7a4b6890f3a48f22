import Choreography.Calendar
import Mathlib.Data.List.DropRight

/-!
# RFC 3339 timestamps

The text of a UTC timestamp and Go's reader of such texts. A text is the date and the time of
day to the second (`secondText`), a fraction of any length up to nine digits, and a zone.
`parseRFC3339` reads the fields one after another, and each field that is written is read back
over any rest of the text (`readUint_digits`, `readFraction_digits`), so a whole text gives its
instant (`parseRFC3339_eq_some`).
-/

namespace Choreography

/-! ## Decimal fields -/

/-- A number as `width` decimal digits, with leading zeros. -/
def digits : (width n : ℕ) → List Char
  | 0, _ => []
  | width + 1, n => digits width (n / 10) ++ [Nat.digitChar (n % 10)]

/-- The number that digits denote. -/
def digitsValue (ds : List Char) : ℕ := ds.foldl (fun x c => x * 10 + (c.toNat - '0'.toNat)) 0

@[simp]
theorem digitsValue_append_singleton (ds : List Char) (c : Char) :
    digitsValue (ds ++ [c]) = digitsValue ds * 10 + (c.toNat - '0'.toNat) := by
  simp [digitsValue]

theorem isDigit_digitChar {n : ℕ} (h : n < 10) : (Nat.digitChar n).isDigit = true := by
  decide +revert

theorem toNat_digitChar {n : ℕ} (h : n < 10) : (Nat.digitChar n).toNat - '0'.toNat = n := by
  decide +revert

@[simp]
theorem length_digits (width n : ℕ) : (digits width n).length = width := by
  induction width generalizing n with
  | zero => rfl
  | succ width ih => simp [digits, ih]

theorem all_isDigit_digits (width n : ℕ) : (digits width n).all Char.isDigit = true := by
  induction width generalizing n with
  | zero => rfl
  | succ width ih =>
    simp [digits, -List.all_eq_true, ih, isDigit_digitChar (Nat.mod_lt n (by decide : 0 < 10))]

theorem digitsValue_digits {width n : ℕ} (h : n < 10 ^ width) :
    digitsValue (digits width n) = n := by
  induction width generalizing n with
  | zero =>
    rw [pow_zero] at h
    exact (Nat.lt_one_iff.mp h).symm
  | succ width ih =>
    have hdiv : n / 10 < 10 ^ width := Nat.div_lt_of_lt_mul (by rwa [pow_succ, mul_comm] at h)
    rw [digits, digitsValue_append_singleton, ih hdiv,
      toNat_digitChar (Nat.mod_lt n (by decide))]
    omega

/-- Dropping the zeros at the end of a fraction leaves its value. -/
theorem digitsValue_rdropWhile_zero (ds : List Char) :
    digitsValue (ds.rdropWhile (· = '0')) *
        10 ^ (ds.length - (ds.rdropWhile (· = '0')).length) = digitsValue ds := by
  induction ds using List.reverseRecOn with
  | nil => rfl
  | append_singleton ds c ih =>
    rw [List.rdropWhile_concat]
    split
    · next hzero =>
      have hc : c = '0' := by simpa using hzero
      have hlen : (ds.rdropWhile (· = '0')).length ≤ ds.length :=
        (List.rdropWhile_prefix _ _).length_le
      rw [List.length_append, List.length_singleton, Nat.sub_add_comm hlen, pow_succ,
        ← mul_assoc, ih, digitsValue_append_singleton, hc]
      simp
    · simp

/-! ## Go's reader -/

/-- Read a number of `width` digits from `lo` to `hi`. -/
def readUint (width lo hi : ℕ) (s : List Char) : Option (ℕ × List Char) :=
  let field := s.take width
  if field.length = width ∧ field.all Char.isDigit then
    let x := digitsValue field
    if lo ≤ x ∧ x ≤ hi then some (x, s.drop width) else none
  else none

/-- Read a fixed character. -/
def readChar (c : Char) : List Char → Option (List Char)
  | [] => none
  | d :: s => if d = c then some s else none

/-- Read the nanoseconds of a second : a point with digits behind it, of which nine count. -/
def readFraction : List Char → ℕ × List Char
  | '.' :: s =>
    let ds := (s.takeWhile Char.isDigit).take 9
    if ds = [] then (0, '.' :: s)
    else (digitsValue ds * 10 ^ (9 - ds.length), s.dropWhile Char.isDigit)
  | s => (0, s)

/-- Read the zone's offset in seconds, to the end of the text. -/
def readZone : List Char → Option ℤ
  | ['Z'] => some 0
  | c :: s => do
    let (hour, s) ← readUint 2 0 23 s
    let s ← readChar ':' s
    let (minute, s) ← readUint 2 0 59 s
    if s ≠ [] then none
    else if c = '+' then some ((hour * 60 + minute) * 60)
    else if c = '-' then some (-((hour * 60 + minute) * 60))
    else none
  | [] => none

/-- Go's `time.parseRFC3339`, as nanoseconds since 1970. -/
def parseRFC3339 (s : List Char) : Option ℤ := do
  let (year, s) ← readUint 4 0 9999 s
  let s ← readChar '-' s
  let (month, s) ← readUint 2 1 12 s
  let s ← readChar '-' s
  let (day, s) ← readUint 2 1 (daysIn year month) s
  let s ← readChar 'T' s
  let (hour, s) ← readUint 2 0 23 s
  let s ← readChar ':' s
  let (minute, s) ← readUint 2 0 59 s
  let s ← readChar ':' s
  let (second, s) ← readUint 2 0 59 s
  let (nsec, s) := readFraction s
  let offset ← readZone s
  return (dayNumber year month day * 86400 + hour * 3600 + minute * 60 + second - offset) *
    1000000000 + nsec

@[simp]
theorem readChar_cons (c : Char) (s : List Char) : readChar c (c :: s) = some s := by
  simp [readChar]

/-- A number is read back from its digits. -/
theorem readUint_digits {width lo hi n : ℕ} (hwidth : n < 10 ^ width) (hlo : lo ≤ n) (hhi : n ≤ hi)
    (s : List Char) : readUint width lo hi (digits width n ++ s) = some (n, s) := by
  have htake : (digits width n ++ s).take width = digits width n :=
    List.take_left' (length_digits width n)
  have hdrop : (digits width n ++ s).drop width = s := List.drop_left' (length_digits width n)
  simp only [readUint, htake, hdrop, length_digits, all_isDigit_digits, and_self, if_true,
    digitsValue_digits hwidth, hlo, hhi]

/-- A fraction is read back from its digits, when what follows is no digit. -/
theorem readFraction_digits {ds : List Char} (hne : ds ≠ []) (hlen : ds.length ≤ 9)
    (hall : ds.all Char.isDigit = true) {c : Char} (hc : c.isDigit = false) (s : List Char) :
    readFraction ('.' :: (ds ++ c :: s)) = (digitsValue ds * 10 ^ (9 - ds.length), c :: s) := by
  have hall' : ∀ a ∈ ds, a.isDigit = true := List.all_eq_true.mp hall
  have htake : (ds ++ c :: s).takeWhile Char.isDigit = ds := by
    rw [List.takeWhile_append_of_pos hall']
    simp [hc]
  have hdrop : (ds ++ c :: s).dropWhile Char.isDigit = c :: s := by
    rw [List.dropWhile_append_of_pos hall']
    simp [hc]
  simp only [readFraction, htake, hdrop, List.take_of_length_le hlen, hne, if_false]

/-! ## Texts -/

/-- The date and the time of day of a second since 1970. -/
def secondText (secs : ℕ) : List Char :=
  let date := Date.ofDays (secs / 86400)
  let r := secs % 86400
  digits 4 date.year ++ '-' :: (digits 2 date.month ++ '-' :: (digits 2 date.day ++
    'T' :: (digits 2 (r / 3600) ++ ':' :: (digits 2 (r / 60 % 60) ++ ':' :: digits 2 (r % 60)))))

/-- A fraction of a second, left out when it has no digits. -/
def fractionText (ds : List Char) : List Char := if ds = [] then [] else '.' :: ds

/-- The seconds from 1970 to the end of the year 9999. -/
def secondsTo10000 : ℕ := 253402300800

/-- Up to its second, a timestamp is read back, and the rest of the text decides. -/
theorem parseRFC3339_secondText {secs : ℕ} (h : secs < secondsTo10000) (s : List Char) :
    parseRFC3339 (secondText secs ++ s) = (readZone (readFraction s).2).map fun offset =>
      ((secs : ℤ) - offset) * 1000000000 + (readFraction s).1 := by
  have hdays : secs / 86400 < 2932897 := by
    unfold secondsTo10000 at h
    omega
  have hnumber := Date.dayNumber_ofDays (secs / 86400)
  have hyear := Date.year_ofDays_le hdays
  generalize hdate : Date.ofDays (secs / 86400) = date at hnumber hyear
  have hmonth := date.month_le
  have hday := daysIn_le date.year date.month
  have hday' := date.day_le
  simp only [parseRFC3339, secondText, hdate, List.append_assoc, List.cons_append]
  rw [readUint_digits (by omega) (Nat.zero_le _) hyear]
  simp only [Option.bind_eq_bind, Option.bind_some, readChar_cons]
  rw [readUint_digits (by omega) date.month_pos hmonth]
  simp only [Option.bind_some, readChar_cons]
  rw [readUint_digits (by omega) date.day_pos hday']
  simp only [Option.bind_some, readChar_cons]
  rw [readUint_digits (by omega) (Nat.zero_le _) (by omega)]
  simp only [Option.bind_some, readChar_cons]
  rw [readUint_digits (by omega) (Nat.zero_le _) (by omega)]
  simp only [Option.bind_some, readChar_cons]
  rw [readUint_digits (by omega) (Nat.zero_le _) (by omega)]
  simp only [Option.bind_some, hnumber]
  cases readZone (readFraction s).2 with
  | none => rfl
  | some offset =>
    -- the days and the time of day add up to the seconds
    have hsum : ((secs / 86400 : ℕ) : ℤ) * 86400 + (secs % 86400 / 3600 : ℕ) * 3600 +
        (secs % 86400 / 60 % 60 : ℕ) * 60 + (secs % 86400 % 60 : ℕ) = secs := by omega
    simp only [Option.bind_some, Option.pure_def, Option.map_some, hsum]

/-- A UTC timestamp with a fraction of at most nine digits gives its instant. -/
theorem parseRFC3339_eq_some {secs : ℕ} (h : secs < secondsTo10000) {ds : List Char}
    (hlen : ds.length ≤ 9) (hall : ds.all Char.isDigit = true) {zone : List Char}
    (hzone : zone = ['Z'] ∨ zone = ['+', '0', '0', ':', '0', '0']) :
    parseRFC3339 (secondText secs ++ (fractionText ds ++ zone)) =
      some ((secs * 1000000000 + digitsValue ds * 10 ^ (9 - ds.length) : ℕ) : ℤ) := by
  have hutc : readZone zone = some 0 := by
    obtain rfl | rfl := hzone
    · rfl
    · decide
  have hfraction : readFraction (fractionText ds ++ zone) =
      (digitsValue ds * 10 ^ (9 - ds.length), zone) := by
    by_cases hne : ds = []
    · subst hne
      obtain rfl | rfl := hzone <;> rfl
    · rw [fractionText, if_neg hne]
      obtain rfl | rfl := hzone
      · exact readFraction_digits hne hlen hall (by decide) _
      · exact readFraction_digits hne hlen hall (by decide) _
  rw [parseRFC3339_secondText h, hfraction, hutc, Option.map_some, sub_zero]
  push_cast
  rfl

end Choreography
