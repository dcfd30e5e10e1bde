import Pilotfish.Python

/-!
# Arithmetic of floats

The operations a program does on floats, given how the exact result of one is rounded. The sign of
zero, infinities and `nan` are those of IEEE 754; the rounding is left open, so that a result can be
about the floats of the machine or about exact numbers.
-/

namespace Python

namespace Double

/-- The float nearest to a number. -/
def nearest (q : ℚ) : Double :=
  if |q| < 1 / 2 ^ 1022 then
    -- below the normal range the last place stays where it is
    let r : ℚ := Binary64.roundHalfEven (q * 2 ^ 1074) / 2 ^ 1074
    if r = 0 ∧ q < 0 then .negZero else .fin r
  else
    let r := Binary64.round q
    if 2 ^ 1024 ≤ r then .inf else if r ≤ -2 ^ 1024 then .negInf else .fin r

/-- The sign bit. -/
def negative : Double → Bool
  | .fin q => q < 0
  | .negZero => true
  | .negInf => true
  | _ => false

def isZero : Double → Bool
  | .fin q => q = 0
  | .negZero => true
  | _ => false

def zero (negative : Bool) : Double := if negative then .negZero else .fin 0

def infinity (negative : Bool) : Double := if negative then .negInf else .inf

/-- `-x`. -/
def neg : Double → Double
  | .fin q => if q = 0 then .negZero else .fin (-q)
  | .negZero => .fin 0
  | .inf => .negInf
  | .negInf => .inf
  | .nan => .nan

variable (rd : ℚ → Double)

/-- `x + y`. -/
def add : Double → Double → Double
  | .nan, _ => .nan
  | _, .nan => .nan
  | .inf, .negInf => .nan
  | .negInf, .inf => .nan
  | .inf, _ => .inf
  | _, .inf => .inf
  | .negInf, _ => .negInf
  | _, .negInf => .negInf
  | .negZero, y => y
  | x, .negZero => x
  | .fin p, .fin q => rd (p + q)

/-- `x - y`. -/
def sub (x y : Double) : Double := add rd x y.neg

/-- `x * y`. -/
def mul (x y : Double) : Double :=
  match x, y with
  | .nan, _ => .nan
  | _, .nan => .nan
  | .inf, y => if y.isZero then .nan else infinity y.negative
  | .negInf, y => if y.isZero then .nan else infinity !y.negative
  | x, .inf => if x.isZero then .nan else infinity x.negative
  | x, .negInf => if x.isZero then .nan else infinity !x.negative
  | .fin p, .fin q =>
      if p = 0 ∨ q = 0 then zero (x.negative != y.negative) else rd (p * q)
  | x, y => zero (x.negative != y.negative)

/-- `x / y`. -/
def div (x y : Double) : Except Exc Double :=
  if y.isZero then .error ⟨.ZeroDivisionError, "float division by zero"⟩
  else .ok <|
    match x, y with
    | .nan, _ => .nan
    | _, .nan => .nan
    | .inf, .fin _ => infinity y.negative
    | .negInf, .fin _ => infinity !y.negative
    | .fin p, .fin q => if p = 0 then zero y.negative else rd (p / q)
    | .negZero, .fin _ => zero !y.negative
    | .fin _, _ => zero (x.negative != y.negative)
    | .negZero, _ => zero (x.negative != y.negative)
    | _, _ => .nan

/-- `min(x, y)`, the first unless the second is less. -/
def min (x y : Double) : Double := if y.lt x then y else x

end Double

/-- `m / n` of integers. -/
def trueDiv (rd : ℚ → Double) (m n : Int) : Except Exc Double :=
  if n = 0 then .error ⟨.ZeroDivisionError, "division by zero"⟩
  else if m = 0 then .ok (.zero (n < 0))
  else
    match rd (m / n) with
    | .inf => .error ⟨.OverflowError, "integer division result too large for a float"⟩
    | .negInf => .error ⟨.OverflowError, "integer division result too large for a float"⟩
    | x => .ok x

/-- A seeded generator; `random` draws from the unit interval. -/
structure Random (ρ : Type) where
  seeded : Int → ρ
  random : ρ → Double × ρ

/-- `rng.uniform(a, b)`. -/
def Random.uniform {ρ : Type} (rd : ℚ → Double) (generator : Random ρ) (a b : Double) (rng : ρ) :
    Double × ρ :=
  let (u, rng) := generator.random rng
  (.add rd a (.mul rd (.sub rd b a) u), rng)

end Python
