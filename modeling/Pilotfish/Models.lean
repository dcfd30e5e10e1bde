import Pilotfish.Runtime
import Mathlib.Data.List.MinMax
import Mathlib.Data.Prod.Lex
import Mathlib.Data.String.Basic
import Mathlib.Tactic.Linarith

/-!
# Domain models

Links, traffic classes and measurements. The types `S` of texts and `B` of flags are the
declared ones by default; a decoder does not check them, so what it builds has objects there.
A number is an object that passed `_require_finite`, and a datetime is aware by its type.

Results:
1. `latest_mem`, `le_latest`: the latest observation is one of the candidates and none is later.
2. `asOf_observations`: what is kept of a snapshot.
-/

namespace Pilotfish
open Python

/-- How far ahead of our own clock another party's timestamp may be, in seconds. -/
def maxClockSkewS : ℚ := 120

/-- The float sum `now.timestamp() + MAX_CLOCK_SKEW_S`. -/
def horizon (now : DateTime) : ℚ := Binary64.round (now.timestamp + maxClockSkewS)

/-- An instant not after the clock, cut to the second, is not past the horizon. -/
theorem timestamp_cut_le_horizon {t c now : DateTime} (h : t.us ≤ now.us) (hc : t.cut = .ok c) :
    c.timestamp ≤ horizon now := by
  have hus := DateTime.fromtimestamp_int.mp hc
  obtain ⟨hlo, hhi⟩ := t.seconds_bounds
  rw [DateTime.timestamp_of_whole hus]
  apply Binary64.le_round (DateTime.abs_lt_of_calendar hlo hhi)
  have hcut : (t.seconds : ℚ) < t.timestamp + 1 := DateTime.trunc_lt_add_one _
  have hmono := DateTime.timestamp_mono h
  unfold maxClockSkewS
  linarith

/-! ## Numbers -/

/-- An object for which `math.isfinite` answers yes. -/
structure Num where
  value : Value
  finite : value.isfinite = .ok true

namespace Num

/-- The number denoted, on which comparisons are exact. -/
def toRat (x : Num) : ℚ :=
  match x.value with
  | .bool b => if b then 1 else 0
  | .int n => n
  | .float (.fin q) => q
  | _ => 0

/-- A bound, given as a float. -/
def ofRat (q : ℚ) : Num := ⟨.float (.fin q), rfl⟩

@[simp] theorem toRat_ofRat (q : ℚ) : (ofRat q).toRat = q := rfl

def text (x : Num) : String := x.value.text

/-- `f"{q:.0f}"` of a float. -/
def fixed0 (q : ℚ) : String :=
  String.ofList (if q < 0 then '-' :: decimal (Binary64.roundHalfEven (-q)).toNat
    else decimal (Binary64.roundHalfEven q).toNat)

/-- `f"{x:.0f}"`: an integer is converted to a float first. -/
def fixed (x : Num) : String :=
  match x.value with
  | .int n => fixed0 (Binary64.round n)
  | .float .negZero => "-0"
  | _ => fixed0 x.toRat

@[ext] theorem ext {x y : Num} (h : x.value = y.value) : x = y := by
  cases x; cases y; simp_all

end Num

instance : OnWire Num where
  value := Num.value
  ofValue? v := if h : v.isfinite = .ok true then some ⟨v, h⟩ else none
  ofValue?_eq_some := by
    intro v x
    constructor
    · intro h
      split_ifs at h
      cases h
      rfl
    · rintro rfl
      exact dif_pos x.finite

instance : OnWire (Option Num) where
  value
    | none => .null
    | some x => x.value
  ofValue?
    | .null => some none
    | v => (OnWire.ofValue? v : Option Num).map some
  ofValue?_eq_some := by
    intro v x
    cases x with
    | none => cases v <;> simp
    | some x =>
      cases hv : v with
      | null =>
        have hfin := x.finite
        simp only [Option.some.injEq, reduceCtorEq, false_iff]
        intro heq
        rw [← heq] at hfin
        cases hfin
      | _ => simp [OnWire.ofValue?_eq_some, OnWire.value]

theorem Value.plain_of_isfinite {v : Value} (h : v.isfinite = .ok true) : v.plain = true := by
  cases v <;> first | rfl | cases h

instance : OnWire.Plain Num := ⟨fun x => Value.plain_of_isfinite x.finite⟩
instance : OnWire.Plain (Option Num) := ⟨fun x => by
  cases x with
  | none => rfl
  | some x => exact Value.plain_of_isfinite x.finite⟩

/-- `_require_finite`: `None` passes, and so does every finite number. -/
def requireFinite (fieldName : String) (value : Value) : Except Exc (Option Num) :=
  match value, h : value.isfinite with
  | .null, _ => .ok none
  | _, .error e => .error e
  | _, .ok true => .ok (some ⟨value, h⟩)
  | _, .ok false => .error ⟨.ValueError, fieldName ++ " must be finite, got " ++ value.quoted⟩

/-! ## Links, classes and observations -/

/-- An access path, with the static properties policy can reason over. -/
structure Link (S : Type := String) (B : Type := Bool) where
  id : S
  type : S
  metered : B
  encryptedBelow : B
  jurisdictions : List S
  owner : S

/-- What policy discriminates on: named requirements. -/
structure TrafficClass (S : Type := String) (B : Type := Bool) where
  id : S
  maxRttMs : Option Num
  allowMetered : B
  allowedJurisdictions : Option (List S)
  requiresEncryption : B

/-- `TrafficClass(id)`. -/
def TrafficClass.ofId (id : String) : TrafficClass where
  id := id
  maxRttMs := none
  allowMetered := true
  allowedJurisdictions := none
  requiresEncryption := false

/-- One measurement, with its instant and its source. -/
structure Observation where
  linkId : String
  quantity : String
  value : Num
  atTime : DateTime
  source : String

/-- Age in seconds, floored at zero. -/
def Observation.ageS (o : Observation) (now : DateTime) : ℚ := max 0 (now.totalSeconds o.atTime)

theorem Observation.ageS_antitone {o p : Observation} {now : DateTime}
    (h : o.atTime.us ≤ p.atTime.us) : p.ageS now ≤ o.ageS now :=
  max_le_max_left 0 (DateTime.totalSeconds_antitone h)

/-! ## Evidence -/

/-- A set of observations with a hash that is meant not to depend on their order. -/
structure EvidenceSnapshot where
  observations : List Observation

namespace EvidenceSnapshot

/-- Drop evidence dated further ahead than the skew allowance. -/
def asOf (evidence : EvidenceSnapshot) (now : DateTime) : EvidenceSnapshot :=
  ⟨evidence.observations.filter fun o => o.atTime.timestamp ≤ horizon now⟩

/-- The observations of one quantity of one link. -/
def candidates (evidence : EvidenceSnapshot) (linkId quantity : String) : List Observation :=
  evidence.observations.filter fun o => o.linkId = linkId ∧ o.quantity = quantity

/-- The latest of them; the first of several with the latest instant. -/
def latest (evidence : EvidenceSnapshot) (linkId quantity : String) : Option Observation :=
  (evidence.candidates linkId quantity).argmax (·.atTime)

def ageS (evidence : EvidenceSnapshot) (linkId quantity : String) (now : DateTime) : Option ℚ :=
  (evidence.latest linkId quantity).map (·.ageS now)

/-- What rows are sorted by: element by element, numbers by what they denote. -/
def rowKey (o : Observation) : String ×ₗ String ×ₗ ℚ ×ₗ String ×ₗ ℚ :=
  toLex (o.linkId, toLex (o.quantity, toLex (o.atTime.timestamp, toLex (o.source, o.value.toRat))))

/-- One observation as a tuple. -/
def row (o : Observation) : Value :=
  .list [.str o.linkId, .str o.quantity, .float (.fin o.atTime.timestamp), .str o.source,
    o.value.value]

def rows (evidence : EvidenceSnapshot) : List Value :=
  (evidence.observations.insertionSort fun o p => rowKey o ≤ rowKey p).map row

def hash (rt : Runtime) (evidence : EvidenceSnapshot) : String :=
  rt.digest (.list evidence.rows)

/-! ## What the latest observation is -/

theorem mem_candidates {evidence : EvidenceSnapshot} {linkId quantity : String} {o : Observation} :
    o ∈ evidence.candidates linkId quantity ↔
    o ∈ evidence.observations ∧ o.linkId = linkId ∧ o.quantity = quantity := by
  simp [candidates]

theorem latest_mem {evidence : EvidenceSnapshot} {linkId quantity : String} {o : Observation}
    (h : evidence.latest linkId quantity = some o) : o ∈ evidence.candidates linkId quantity :=
  List.argmax_mem h

theorem le_latest {evidence : EvidenceSnapshot} {linkId quantity : String} {o p : Observation}
    (h : evidence.latest linkId quantity = some o) (hp : p ∈ evidence.candidates linkId quantity) :
    p.atTime.us ≤ o.atTime.us :=
  DateTime.le_def.mp (List.le_of_mem_argmax (f := Observation.atTime) hp h)

theorem latest_eq_none {evidence : EvidenceSnapshot} {linkId quantity : String} :
    evidence.latest linkId quantity = none ↔ evidence.candidates linkId quantity = [] :=
  List.argmax_eq_none

theorem latest_isSome {evidence : EvidenceSnapshot} {linkId quantity : String} {o : Observation}
    (ho : o ∈ evidence.candidates linkId quantity) :
    ∃ p, evidence.latest linkId quantity = some p ∧ o.atTime.us ≤ p.atTime.us := by
  cases hp : evidence.latest linkId quantity with
  | none =>
    rw [latest_eq_none] at hp
    rw [hp] at ho
    cases ho
  | some p => exact ⟨p, rfl, le_latest hp ho⟩

theorem asOf_observations {evidence : EvidenceSnapshot} {now : DateTime} {o : Observation} :
    o ∈ (evidence.asOf now).observations ↔
    o ∈ evidence.observations ∧ o.atTime.timestamp ≤ horizon now := by
  simp [asOf]

end EvidenceSnapshot

end Pilotfish
