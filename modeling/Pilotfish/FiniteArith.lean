import Pilotfish.FloatArith

/-!
# Arithmetic that stays finite

A float that a program was given or computed is a number, unless it overflowed or was made of what
was none. With rounding that never overflows, the operations keep to numbers.

Results:
1. `finite_add`, `finite_mul`, `finite_div`: the operations on numbers give numbers.
2. `trueDiv_returns`: integers are divided without an overflow.
3. `finite_uniform`: a draw between numbers is a number.
-/

namespace Python

/-- A float that is a number. -/
def Double.IsFinite (x : Double) : Prop := (Value.float x).isfinite = .ok true

/-- Rounding that never overflows. -/
def NoOverflow (rd : ℚ → Double) : Prop := ∀ q, (rd q).IsFinite

theorem noOverflow_exact : NoOverflow .fin := fun _ => rfl

section Finite
variable {rd : ℚ → Double} (hrd : NoOverflow rd) {x y : Double}

/-- A number is an exact one, or the negative zero. -/
theorem Double.IsFinite.cases (h : x.IsFinite) : (∃ q, x = .fin q) ∨ x = .negZero := by
  cases x with
  | fin q => exact .inl ⟨q, rfl⟩
  | negZero => exact .inr rfl
  | inf => cases h
  | negInf => cases h
  | nan => cases h

theorem finite_zero (negative : Bool) : (Double.zero negative).IsFinite := by
  cases negative <;> rfl

theorem finite_neg (hx : x.IsFinite) : x.neg.IsFinite := by
  obtain ⟨q, rfl⟩ | rfl := hx.cases
  · by_cases hq : q = 0
    · simp only [Double.neg, hq, if_true]
      rfl
    · simp only [Double.neg, hq, if_false]
      rfl
  · rfl

include hrd

theorem finite_add (hx : x.IsFinite) (hy : y.IsFinite) : (Double.add rd x y).IsFinite := by
  obtain ⟨p, rfl⟩ | rfl := hx.cases
  · obtain ⟨q, rfl⟩ | rfl := hy.cases
    · exact hrd _
    · exact hx
  · obtain ⟨q, rfl⟩ | rfl := hy.cases
    · exact hy
    · exact hy

theorem finite_sub (hx : x.IsFinite) (hy : y.IsFinite) : (Double.sub rd x y).IsFinite :=
  finite_add hrd hx (finite_neg hy)

theorem finite_mul (hx : x.IsFinite) (hy : y.IsFinite) : (Double.mul rd x y).IsFinite := by
  obtain ⟨p, rfl⟩ | rfl := hx.cases
  · obtain ⟨q, rfl⟩ | rfl := hy.cases
    · unfold Double.mul
      dsimp only
      split_ifs
      · exact finite_zero _
      · exact hrd _
    · exact finite_zero _
  · obtain ⟨q, rfl⟩ | rfl := hy.cases
    · exact finite_zero _
    · exact finite_zero _

/-- A quotient of numbers, but by zero. -/
theorem finite_div (hx : x.IsFinite) {q : ℚ} (hq : q ≠ 0) :
    ∃ z, Double.div rd x (.fin q) = .ok z ∧ z.IsFinite := by
  unfold Double.div
  rw [if_neg (by simpa [Double.isZero] using hq)]
  obtain ⟨p, rfl⟩ | rfl := hx.cases
  · dsimp only
    split_ifs
    · exact ⟨_, rfl, finite_zero _⟩
    · exact ⟨_, rfl, hrd _⟩
  · exact ⟨_, rfl, finite_zero _⟩

theorem trueDiv_returns (m : Int) {n : Int} (hn : n ≠ 0) :
    ∃ x, trueDiv rd m n = .ok x ∧ x.IsFinite := by
  unfold trueDiv
  rw [if_neg hn]
  split_ifs
  · exact ⟨_, rfl, finite_zero _⟩
  · have hfinite := hrd (m / n)
    obtain ⟨q, hround⟩ | hround := hfinite.cases
    · rw [hround]
      exact ⟨_, rfl, rfl⟩
    · rw [hround]
      exact ⟨_, rfl, rfl⟩

/-- A draw between numbers is a number. -/
theorem finite_uniform {ρ : Type} {generator : Random ρ}
    (hdraws : ∀ rng, (generator.random rng).1.IsFinite) (p q : ℚ) (rng : ρ) :
    (generator.uniform rd (.fin p) (.fin q) rng).1.IsFinite :=
  finite_add hrd (x := .fin p) rfl
    (finite_mul hrd (finite_sub hrd (x := .fin q) (y := .fin p) rfl rfl) (hdraws rng))

end Finite

end Python
