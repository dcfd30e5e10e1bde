import Mathlib.Data.Int.Log
import Mathlib.Data.Rat.Floor
import Mathlib.Tactic.Linarith
import Mathlib.Tactic.Positivity
import Mathlib.Tactic.Ring
import Mathlib.Tactic.FieldSimp
import Mathlib.Tactic.NormNum

/-!
# Rounding to binary64

Floating-point results as exact rationals: a correctly rounded operation is the exact
result followed by `round`, which keeps 53 significant bits and breaks ties to even.
The exponent range is not bounded, so the module speaks about values well inside it.

Results:
1. `roundHalfEven_mono`, `roundHalfEven_neg`: rounding to an integer is monotone and odd.
2. `round_mono`: rounding to 53 bits is monotone.
3. `round_intCast`: integers of at most 53 bits are kept, so `le_round` and `round_le`
   carry an integer bound across a rounding.
-/

namespace Binary64

/-! ## To the nearest integer -/

/-- The nearest integer, ties to the even neighbour. -/
def roundHalfEven (q : ℚ) : ℤ :=
  if q - ⌊q⌋ < 1 / 2 then ⌊q⌋
  else if 1 / 2 < q - ⌊q⌋ then ⌊q⌋ + 1
  else if ⌊q⌋ % 2 = 0 then ⌊q⌋ else ⌊q⌋ + 1

theorem floor_le_roundHalfEven (q : ℚ) : ⌊q⌋ ≤ roundHalfEven q := by
  unfold roundHalfEven
  split_ifs <;> omega

theorem roundHalfEven_le_floor_add_one (q : ℚ) : roundHalfEven q ≤ ⌊q⌋ + 1 := by
  unfold roundHalfEven
  split_ifs <;> omega

@[simp] theorem roundHalfEven_intCast (n : ℤ) : roundHalfEven n = n := by
  simp [roundHalfEven]

@[simp] theorem roundHalfEven_zero : roundHalfEven 0 = 0 := by
  simp [roundHalfEven]

theorem roundHalfEven_mono {x y : ℚ} (h : x ≤ y) : roundHalfEven x ≤ roundHalfEven y := by
  have hfloor : ⌊x⌋ ≤ ⌊y⌋ := Int.floor_le_floor h
  rcases hfloor.lt_or_eq with hlt | heq
  · have hx := roundHalfEven_le_floor_add_one x
    have hy := floor_le_roundHalfEven y
    omega
  · -- on one unit interval the three branches are taken in the order of the fraction
    unfold roundHalfEven
    rw [heq]
    split_ifs <;> first | omega | (exfalso; linarith)

theorem roundHalfEven_neg (q : ℚ) : roundHalfEven (-q) = -roundHalfEven q := by
  by_cases hint : q = ⌊q⌋
  · rw [hint, ← Int.cast_neg, roundHalfEven_intCast, roundHalfEven_intCast]
  · have hlo : (⌊q⌋ : ℚ) < q := lt_of_le_of_ne (Int.floor_le q) (Ne.symm hint)
    have hhi : q < ⌊q⌋ + 1 := Int.lt_floor_add_one q
    have hneg : ⌊-q⌋ = -⌊q⌋ - 1 := by
      rw [Int.floor_eq_iff]
      push_cast
      constructor <;> linarith
    unfold roundHalfEven
    rw [hneg]
    push_cast
    split_ifs <;> first | omega | (exfalso; linarith)

/-! ## To 53 significant bits -/

/-- The exponent of the last place kept for `q`. -/
def ulpExp (q : ℚ) : ℤ := Int.log 2 |q| - 52

/-- `q` rounded to 53 significant bits, ties to even. -/
def round (q : ℚ) : ℚ := roundHalfEven (q / 2 ^ ulpExp q) * 2 ^ ulpExp q

theorem two_zpow_pos (e : ℤ) : (0 : ℚ) < 2 ^ e := zpow_pos (by norm_num) e

@[simp] theorem round_zero : round 0 = 0 := by simp [round]

theorem round_neg (q : ℚ) : round (-q) = -round q := by
  simp [round, ulpExp, neg_div, roundHalfEven_neg]

/-- Rounding at a fixed last place is monotone. -/
theorem scaled_mono (e : ℤ) {x y : ℚ} (h : x ≤ y) :
    (roundHalfEven (x / 2 ^ e) : ℚ) * 2 ^ e ≤ roundHalfEven (y / 2 ^ e) * 2 ^ e := by
  have hdiv : x / 2 ^ e ≤ y / 2 ^ e := (div_le_div_iff_of_pos_right (two_zpow_pos e)).mpr h
  exact mul_le_mul_of_nonneg_right (by exact_mod_cast roundHalfEven_mono hdiv)
    (two_zpow_pos e).le

/-- A multiple of the last place is kept. -/
theorem scaled_exact (e m : ℤ) :
    (roundHalfEven ((m : ℚ) * 2 ^ e / 2 ^ e) : ℚ) * 2 ^ e = m * 2 ^ e := by
  rw [mul_div_cancel_right₀ _ (two_zpow_pos e).ne', roundHalfEven_intCast]

theorem two_zpow_eq_scaled (k e : ℤ) (n : ℕ) (h : k = e + n) :
    (2 : ℚ) ^ k = ((2 ^ n : ℤ) : ℚ) * 2 ^ e := by
  subst h
  rw [zpow_add₀ (by norm_num)]
  push_cast
  rw [zpow_natCast]
  ring

/-- A positive number is rounded inside its own binade, the upper end included. -/
theorem round_mem_binade {q : ℚ} (hq : 0 < q) :
    (2 : ℚ) ^ Int.log 2 q ≤ round q ∧ round q ≤ 2 ^ (Int.log 2 q + 1) := by
  have habs : ulpExp q = Int.log 2 q - 52 := by rw [ulpExp, abs_of_pos hq]
  have hlo : (2 : ℚ) ^ Int.log 2 q = ((2 ^ 52 : ℤ) : ℚ) * 2 ^ ulpExp q :=
    two_zpow_eq_scaled _ _ 52 (by rw [habs]; norm_num)
  have hhi : (2 : ℚ) ^ (Int.log 2 q + 1) = ((2 ^ 53 : ℤ) : ℚ) * 2 ^ ulpExp q :=
    two_zpow_eq_scaled _ _ 53 (by rw [habs]; norm_num; ring)
  have hle : ((2 ^ 52 : ℤ) : ℚ) * 2 ^ ulpExp q ≤ q := by
    rw [← hlo]; exact_mod_cast Int.zpow_log_le_self (by norm_num) hq
  have hge : q ≤ ((2 ^ 53 : ℤ) : ℚ) * 2 ^ ulpExp q := by
    rw [← hhi]; exact_mod_cast (Int.lt_zpow_succ_log_self (by norm_num) q).le
  constructor
  · rw [hlo, ← scaled_exact]
    exact scaled_mono _ hle
  · rw [hhi, ← scaled_exact (ulpExp q) (2 ^ 53)]
    exact scaled_mono _ hge

theorem round_nonneg {q : ℚ} (hq : 0 ≤ q) : 0 ≤ round q := by
  rcases hq.eq_or_lt with rfl | hpos
  · simp
  · exact (two_zpow_pos _).le.trans (round_mem_binade hpos).1

theorem round_mono_of_pos {x y : ℚ} (hx : 0 < x) (h : x ≤ y) : round x ≤ round y := by
  have hy : 0 < y := hx.trans_le h
  have hlog : Int.log 2 x ≤ Int.log 2 y := Int.log_mono_right hx h
  rcases hlog.lt_or_eq with hlt | heq
  · -- a later binade starts where the earlier one ends
    calc round x ≤ 2 ^ (Int.log 2 x + 1) := (round_mem_binade hx).2
      _ ≤ 2 ^ Int.log 2 y := zpow_le_zpow_right₀ (by norm_num) (by omega)
      _ ≤ round y := (round_mem_binade hy).1
  · have hulp : ulpExp x = ulpExp y := by rw [ulpExp, ulpExp, abs_of_pos hx, abs_of_pos hy, heq]
    rw [round, round, hulp]
    exact scaled_mono _ h

theorem round_mono {x y : ℚ} (h : x ≤ y) : round x ≤ round y := by
  rcases lt_trichotomy x 0 with hx | rfl | hx
  · rcases lt_or_ge y 0 with hy | hy
    · have hneg := round_mono_of_pos (x := -y) (y := -x) (by linarith) (by linarith)
      rw [round_neg, round_neg] at hneg
      linarith
    · have hneg := round_nonneg (q := -x) (by linarith)
      rw [round_neg] at hneg
      linarith [round_nonneg hy]
  · simpa using round_nonneg h
  · exact round_mono_of_pos hx h

/-- An integer of at most 53 bits is a binary64 number. -/
theorem round_intCast {n : ℤ} (h : |n| < 2 ^ 53) : round n = n := by
  rcases eq_or_ne n 0 with rfl | hn
  · simp
  · have hpos : (0 : ℚ) < |(n : ℚ)| := abs_pos.mpr (by exact_mod_cast hn)
    have hlog : Int.log 2 |(n : ℚ)| < 53 := by
      rw [← Int.lt_zpow_iff_log_lt (by norm_num) hpos, ← Int.cast_abs]
      exact_mod_cast h
    obtain ⟨k, hk⟩ : ∃ k : ℕ, -ulpExp n = k := ⟨(-ulpExp n).toNat, by unfold ulpExp; omega⟩
    have hscaled : (n : ℚ) = ((n * 2 ^ k : ℤ) : ℚ) * 2 ^ ulpExp n := by
      rw [show ulpExp n = -(k : ℤ) by omega, zpow_neg, zpow_natCast]
      push_cast
      field_simp
    unfold round
    conv_lhs => rw [hscaled]
    rw [show ulpExp ((n * 2 ^ k : ℤ) * 2 ^ ulpExp n : ℚ) = ulpExp n by rw [← hscaled],
      scaled_exact, ← hscaled]

theorem le_round {n : ℤ} {q : ℚ} (hn : |n| < 2 ^ 53) (h : (n : ℚ) ≤ q) : (n : ℚ) ≤ round q := by
  simpa [round_intCast hn] using round_mono h

theorem round_le {n : ℤ} {q : ℚ} (hn : |n| < 2 ^ 53) (h : q ≤ (n : ℚ)) : round q ≤ (n : ℚ) := by
  simpa [round_intCast hn] using round_mono h

end Binary64
