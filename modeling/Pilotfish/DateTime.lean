import Pilotfish.Python
import Mathlib.Data.Int.Order.Basic

/-!
# Aware datetimes

A datetime is the instant it names, in microseconds since the Unix epoch, within the years 1
to 9999 of UTC. `timestamp` is the float Python computes, so far from the epoch it is coarser
than a microsecond; `seconds` is what goes on the wire.

Results:
1. `seconds_ofSeconds`: a whole second survives the wire.
2. `timestamp_mono`: later instants do not get earlier stamps.
3. `fromtimestamp_seconds`: the only instants the wire loses are those whose float rounds up
   past the year 9999.
-/

namespace Python

/-- The first and the last second a datetime can hold, years 1 and 9999. -/
def minSecond : Int := -62135596800
def maxSecond : Int := 253402300799

structure DateTime where
  us : Int
  lower : minSecond * 1000000 ≤ us
  upper : us < (maxSecond + 1) * 1000000
deriving DecidableEq

/-- `int(x)` of a float. -/
def trunc (q : ℚ) : Int := if 0 ≤ q then ⌊q⌋ else ⌈q⌉

namespace DateTime

/-- The datetime of an instant; `overflow` is raised outside the calendar. -/
def ofUs (overflow : Exc) (us : Int) : Except Exc DateTime :=
  if h : minSecond * 1000000 ≤ us ∧ us < (maxSecond + 1) * 1000000 then .ok ⟨us, h.1, h.2⟩
  else .error overflow

/-- `datetime.fromtimestamp(0, tz=UTC)`. -/
def epoch : DateTime := ⟨0, by decide, by decide⟩

/-- `value.timestamp()`. -/
def timestamp (t : DateTime) : ℚ := Binary64.round (t.us / 1000000)

/-- `int(value.timestamp())`. -/
def seconds (t : DateTime) : Int := trunc t.timestamp

/-- `(later - earlier).total_seconds()`. -/
def totalSeconds (later earlier : DateTime) : ℚ :=
  Binary64.round ((later.us - earlier.us : Int) / 1000000)

def yearOutOfRange : Exc := ⟨.ValueError, "year is out of range"⟩

/-- Seconds given as a float, split into whole seconds and microseconds, ties to even. -/
def floatUs (q : ℚ) : Int :=
  trunc q * 1000000 + Binary64.roundHalfEven (Binary64.round ((q - trunc q) * 1000000))

/-- `datetime.fromtimestamp(v, tz=UTC)`. -/
def fromtimestamp : Value → Except Exc DateTime
  | .int n => ofUs yearOutOfRange (n * 1000000)
  | .bool b => ofUs yearOutOfRange (if b then 1000000 else 0)
  | .float (.fin q) => ofUs yearOutOfRange (floatUs q)
  | .float .negZero => ofUs yearOutOfRange 0
  | .float .nan => .error ⟨.ValueError, "cannot convert float NaN to integer"⟩
  | .float _ => .error ⟨.OverflowError, "cannot convert float infinity to integer"⟩
  | v => Value.typeError ("'" ++ v.typeName ++ "' object cannot be interpreted as an integer")

/-- `t + delta` for a delta in microseconds. -/
def add (t : DateTime) (us : Int) : Except Exc DateTime :=
  ofUs ⟨.OverflowError, "date value out of range"⟩ (t.us + us)

/-- The whole second that is sent for an instant, read back. -/
def cut (t : DateTime) : Except Exc DateTime := fromtimestamp (.int t.seconds)

/-! ## Printing -/

/-- Year, month and day of a day counted from the epoch, in the proleptic Gregorian calendar:
years are counted from March, in eras of 400. -/
def civil (days : Int) : Int × Int × Int :=
  let z := days + 719468
  let era := z / 146097
  let doe := z % 146097
  let yoe := (doe - doe / 1460 + doe / 36524 - doe / 146096) / 365
  let doy := doe - (365 * yoe + yoe / 4 - yoe / 100)
  let mp := (5 * doy + 2) / 153
  let month := if mp < 10 then mp + 3 else mp - 9
  let year := yoe + era * 400
  (if month ≤ 2 then year + 1 else year, month, doy - (153 * mp + 2) / 5 + 1)

/-- A number padded with zeros to a width. -/
def padded (width : Nat) (n : Int) : List Char :=
  let digits := decimal n.toNat
  List.replicate (width - digits.length) '0' ++ digits

/-- `t.isoformat()` of an instant in UTC. -/
def isoformat (t : DateTime) : String :=
  let second := t.us / 1000000
  let fraction := t.us % 1000000
  let (year, month, day) := civil (second / 86400)
  let clock := second % 86400
  String.ofList (padded 4 year ++ '-' :: padded 2 month ++ '-' :: padded 2 day ++ 'T' ::
    padded 2 (clock / 3600) ++ ':' :: padded 2 (clock / 60 % 60) ++ ':' :: padded 2 (clock % 60) ++
    (if fraction = 0 then [] else '.' :: padded 6 fraction) ++ ['+', '0', '0', ':', '0', '0'])

@[ext] theorem ext {s t : DateTime} (h : s.us = t.us) : s = t := by
  cases s; cases t; simp_all

/-- Datetimes compare as their instants. -/
instance : LinearOrder DateTime := @LinearOrder.lift' _ _ Int.instLinearOrder us fun _ _ => ext

theorem le_def {s t : DateTime} : s ≤ t ↔ s.us ≤ t.us := Iff.rfl

theorem ofUs_eq_ok {e : Exc} {us : Int} {t : DateTime} : ofUs e us = .ok t ↔ t.us = us := by
  unfold ofUs
  split_ifs with h
  · constructor
    · intro heq; cases heq; rfl
    · intro heq; exact congrArg Except.ok (ext heq.symm)
  · constructor
    · intro heq; cases heq
    · rintro rfl; exact absurd ⟨t.lower, t.upper⟩ h

/-! ## Truncation -/

@[simp] theorem trunc_intCast (n : Int) : trunc n = n := by
  unfold trunc
  split_ifs <;> simp

theorem trunc_mono {x y : ℚ} (h : x ≤ y) : trunc x ≤ trunc y := by
  unfold trunc
  split_ifs with hx hy hy
  · exact Int.floor_le_floor h
  · exact absurd (hx.trans h) hy
  · have hx' : ⌈x⌉ ≤ 0 := Int.ceil_le.mpr (by push_cast; linarith)
    exact hx'.trans (Int.floor_nonneg.mpr hy)
  · exact Int.ceil_le_ceil h

/-- Truncation moves a number by less than one, towards zero. -/
theorem trunc_lt_add_one (q : ℚ) : (trunc q : ℚ) < q + 1 := by
  unfold trunc
  split_ifs
  · linarith [Int.floor_le q]
  · exact Int.ceil_lt_add_one q

/-! ## Stamps -/

theorem timestamp_mono {s t : DateTime} (h : s.us ≤ t.us) : s.timestamp ≤ t.timestamp := by
  apply Binary64.round_mono
  have : (s.us : ℚ) ≤ t.us := by exact_mod_cast h
  linarith

/-- The earlier an instant, the longer ago it is. -/
theorem totalSeconds_antitone {now s t : DateTime} (h : s.us ≤ t.us) :
    now.totalSeconds t ≤ now.totalSeconds s := by
  apply Binary64.round_mono
  have : ((now.us - t.us : Int) : ℚ) ≤ (now.us - s.us : Int) := by exact_mod_cast (by omega)
  linarith

/-- A second of the calendar has at most 53 bits. -/
theorem abs_lt_of_calendar {n : Int} (hlo : minSecond ≤ n) (hhi : n ≤ maxSecond + 1) :
    |n| < 2 ^ 53 := by
  unfold minSecond at hlo
  unfold maxSecond at hhi
  rw [abs_lt]
  constructor <;> omega

theorem timestamp_of_whole {t : DateTime} {n : Int} (h : t.us = n * 1000000) :
    t.timestamp = n := by
  have hlo := t.lower
  have hhi := t.upper
  have hn : |n| < 2 ^ 53 := abs_lt_of_calendar (by omega) (by omega)
  rw [timestamp, h, Int.cast_mul]
  rw [show (n : ℚ) * ((1000000 : Int) : ℚ) / 1000000 = n by push_cast; field_simp]
  exact Binary64.round_intCast hn

theorem seconds_of_whole {t : DateTime} {n : Int} (h : t.us = n * 1000000) : t.seconds = n := by
  rw [seconds, timestamp_of_whole h, trunc_intCast]

theorem totalSeconds_of_whole {later earlier : DateTime} {n : Int}
    (h : later.us - earlier.us = n * 1000000) : later.totalSeconds earlier = n := by
  have hlo := later.lower
  have hhi := later.upper
  have hlo' := earlier.lower
  have hhi' := earlier.upper
  have hn : |n| < 2 ^ 53 := by
    unfold minSecond maxSecond at *
    rw [abs_lt]
    constructor <;> omega
  rw [totalSeconds, h, Int.cast_mul]
  rw [show (n : ℚ) * ((1000000 : Int) : ℚ) / 1000000 = n by push_cast; field_simp]
  exact Binary64.round_intCast hn

theorem floatUs_intCast (n : Int) : floatUs n = n * 1000000 := by
  have hround : Binary64.round 0 = 0 := by
    simpa only [Int.cast_zero] using Binary64.round_intCast (n := 0) (by norm_num)
  have hzero : Binary64.roundHalfEven 0 = 0 := by decide +kernel
  rw [floatUs, trunc_intCast, sub_self, zero_mul, hround, hzero, add_zero]

theorem timestamp_bounds (t : DateTime) :
    (minSecond : ℚ) ≤ t.timestamp ∧ t.timestamp ≤ ((maxSecond + 1 : Int) : ℚ) := by
  have hlo : ((minSecond * 1000000 : Int) : ℚ) ≤ t.us := by exact_mod_cast t.lower
  have hhi : (t.us : ℚ) ≤ (((maxSecond + 1) * 1000000 : Int) : ℚ) := by exact_mod_cast t.upper.le
  constructor
  · apply Binary64.le_round (abs_lt_of_calendar le_rfl (by decide))
    push_cast at hlo ⊢
    linarith
  · apply Binary64.round_le (abs_lt_of_calendar (by decide) le_rfl)
    push_cast at hhi ⊢
    linarith

theorem seconds_bounds (t : DateTime) : minSecond ≤ t.seconds ∧ t.seconds ≤ maxSecond + 1 := by
  obtain ⟨hlo, hhi⟩ := t.timestamp_bounds
  have h1 := trunc_mono hlo
  have h2 := trunc_mono hhi
  rw [trunc_intCast] at h1 h2
  exact ⟨h1, h2⟩

/-- Reading a whole second back. -/
theorem fromtimestamp_int {n : Int} {t : DateTime} :
    fromtimestamp (.int n) = .ok t ↔ t.us = n * 1000000 := ofUs_eq_ok

theorem seconds_ofSeconds {n : Int} {t : DateTime} (h : fromtimestamp (.int n) = .ok t) :
    t.seconds = n := seconds_of_whole (fromtimestamp_int.mp h)

/-- The stamp of an instant can be read back unless it lies past the last second. -/
theorem fromtimestamp_seconds (t : DateTime) :
    (∃ s, t.cut = .ok s) ↔ t.seconds ≤ maxSecond := by
  obtain ⟨hlo, -⟩ := t.seconds_bounds
  constructor
  · rintro ⟨s, hs⟩
    have hus := fromtimestamp_int.mp hs
    -- a second past the last is the one value the bounds allow and the calendar does not
    have hup := s.upper
    omega
  · intro hle
    have hrange : minSecond * 1000000 ≤ t.seconds * 1000000 ∧
        t.seconds * 1000000 < (maxSecond + 1) * 1000000 := by omega
    exact ⟨⟨t.seconds * 1000000, hrange.1, hrange.2⟩, fromtimestamp_int.mpr rfl⟩

theorem cut_seconds {t s : DateTime} (h : t.cut = .ok s) : s.seconds = t.seconds :=
  seconds_ofSeconds h

/-- Cutting an instant that is a whole second changes nothing. -/
theorem cut_of_whole {t : DateTime} {n : Int} (h : t.us = n * 1000000) : t.cut = .ok t := by
  rw [cut, seconds_of_whole h]
  exact fromtimestamp_int.mpr h

end DateTime

end Python
