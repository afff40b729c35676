import Mathlib.Algebra.Order.Field.Power
import Mathlib.Algebra.Order.Floor.Semifield
import Mathlib.Data.Int.Log
import Mathlib.Data.Rat.Floor
import Mathlib.Tactic.FieldSimp
import Mathlib.Tactic.Linarith
import Mathlib.Tactic.Positivity
import Mathlib.Tactic.Ring
import TableGate.Number.Ratio

/-!
# What ratios are worth

A ratio is worth its quotient. Scaling, rounding and both magnitudes depend on
nothing else, so a ratio may be reduced or extended before any of them.

## Main results

* `value_scale`: scaling multiplies by a power.
* `round_eq_of_near`: a whole number nearer than one half is the rounded ratio.
* `round_congr`: rounding depends on the quotient alone.
* `log2_eq`, `log10_eq`: the magnitudes of a ratio are those of its quotient.
-/

namespace TableGate.Number

namespace Ratio

/-- What a ratio is worth. -/
def value (r : Ratio) : ℚ := r.num / r.den

variable {r a b : Ratio}

theorem value_pos (hNum : 0 < r.num) (hDen : 0 < r.den) : 0 < r.value := by
  unfold value
  positivity

/-! ## Scaling -/

theorem den_scale_pos (h : 0 < r.den) {base : Nat} (hBase : 0 < base)
    (power : Int) : 0 < (r.scale base power).den := by
  cases power with
  | ofNat n => exact h
  | negSucc n => exact Nat.mul_pos h (Nat.pow_pos hBase)

theorem value_scale (r : Ratio) {base : Nat} (hBase : 0 < base)
    (power : Int) :
    (r.scale base power).value = r.value * (base : ℚ) ^ power := by
  have hSome : (base : ℚ) ≠ 0 := by positivity
  cases power with
  | ofNat n =>
      simp only [scale, value, Nat.pow_eq, Nat.cast_mul, Nat.cast_pow,
        Int.ofNat_eq_natCast, zpow_natCast]
      ring
  | negSucc n =>
      simp only [scale, value, Nat.pow_eq, Nat.cast_mul, Nat.cast_pow,
        zpow_negSucc]
      field_simp

/-! ## Rounding -/

/-- A ratio is rounded by at most one half. -/
theorem abs_round_sub_le (h : 0 < r.den) :
    |(r.round : ℚ) - r.value| ≤ 1 / 2 := by
  have hDen : (0 : ℚ) < r.den := by exact_mod_cast h
  have hUp : (2 : ℚ) * (r.den * r.round) ≤ 2 * r.num + r.den := by
    exact_mod_cast divNearest_le h
  have hDown : (2 : ℚ) * r.num ≤ 2 * (r.den * r.round) + r.den := by
    exact_mod_cast le_divNearest h
  have hValue : r.value * r.den = r.num := div_mul_cancel₀ _ hDen.ne'
  rw [abs_le]
  constructor
  · nlinarith
  · nlinarith

/-- A whole number nearer than one half is the rounded ratio. -/
theorem round_eq_of_near (h : 0 < r.den) {n : Nat}
    (hNear : |(n : ℚ) - r.value| < 1 / 2) : r.round = n := by
  have hRound := abs_le.1 (abs_round_sub_le h)
  have hWithin := abs_lt.1 hNear
  have hAbove : (r.round : ℚ) < n + 1 := by linarith
  have hBelow : (n : ℚ) < r.round + 1 := by linarith
  have hUp : r.round < n + 1 := by exact_mod_cast hAbove
  have hDown : n < r.round + 1 := by exact_mod_cast hBelow
  omega

/-- A common factor does not change the nearest whole number. -/
theorem divNearest_mul (num den : Nat) {k : Nat} (h : 0 < k) :
    divNearest (num * k) (den * k) = divNearest num den := by
  have hLess : ∀ x y : Nat, x * k < y * k ↔ x < y :=
    fun x y => Nat.mul_lt_mul_right h
  simp only [divNearest, Nat.mul_div_mul_right _ _ h, Nat.mul_mod_mul_right,
    ← Nat.mul_assoc, hLess]

/-- Rounding depends on the quotient alone. -/
theorem round_congr (ha : 0 < a.den) (hb : 0 < b.den)
    (h : a.value = b.value) : a.round = b.round := by
  have hCross : a.num * b.den = b.num * a.den := by
    have hQuotients : (a.num : ℚ) / a.den = b.num / b.den := h
    rw [div_eq_div_iff (by positivity) (by positivity)] at hQuotients
    exact_mod_cast hQuotients
  rw [round, round, ← divNearest_mul a.num a.den hb,
    ← divNearest_mul b.num b.den ha, hCross, Nat.mul_comm a.den]

/-! ## Magnitudes -/

/-- The magnitude of a number between two neighbouring powers. -/
theorem log_eq_of_between {base : ℕ} (hBase : 1 < base) {e : Int} {x : ℚ}
    (hLow : (base : ℚ) ^ e ≤ x) (hHigh : x < (base : ℚ) ^ (e + 1)) :
    Int.log base x = e := by
  have hSome : (0 : ℚ) < base := by exact_mod_cast Nat.lt_of_succ_lt hBase
  have hPos : 0 < x := (zpow_pos hSome e).trans_le hLow
  have hUp := (Int.zpow_le_iff_le_log hBase hPos).1 hLow
  have hDown := (Int.lt_zpow_iff_log_lt hBase hPos).1 hHigh
  omega

/-- The guess of a binary magnitude is off by at most one. -/
theorem guess_spec (hNum : 0 < r.num) (hDen : 0 < r.den) :
    (2 : ℚ) ^ ((r.num.log2 : Int) - r.den.log2 - 1) ≤ r.value ∧
      r.value < 2 ^ ((r.num.log2 : Int) - r.den.log2 + 1) := by
  have hNumLow : (2 : ℚ) ^ (r.num.log2 : Int) ≤ r.num := by
    exact_mod_cast Nat.log2_self_le hNum.ne'
  have hNumHigh : (r.num : ℚ) < 2 ^ ((r.num.log2 : Int) + 1) := by
    exact_mod_cast Nat.lt_log2_self
  have hDenLow : (2 : ℚ) ^ (r.den.log2 : Int) ≤ r.den := by
    exact_mod_cast Nat.log2_self_le hDen.ne'
  have hDenHigh : (r.den : ℚ) < 2 ^ ((r.den.log2 : Int) + 1) := by
    exact_mod_cast Nat.lt_log2_self
  have hDenPos : (0 : ℚ) < r.den := by exact_mod_cast hDen
  generalize (r.num.log2 : Int) = m at *
  generalize (r.den.log2 : Int) = n at *
  constructor
  · rw [value, le_div_iff₀ hDenPos]
    calc (2 : ℚ) ^ (m - n - 1) * r.den
        ≤ 2 ^ (m - n - 1) * 2 ^ (n + 1) := by gcongr
      _ = 2 ^ m := by rw [← zpow_add₀ two_ne_zero]; congr 1; ring
      _ ≤ r.num := hNumLow
  · rw [value, div_lt_iff₀ hDenPos]
    calc (r.num : ℚ) < 2 ^ (m + 1) := hNumHigh
      _ = 2 ^ (m - n + 1) * 2 ^ n := by
          rw [← zpow_add₀ two_ne_zero]; congr 1; ring
      _ ≤ 2 ^ (m - n + 1) * r.den := by gcongr

/-- The binary magnitude of a ratio is that of its quotient. -/
theorem log2_eq (hNum : 0 < r.num) (hDen : 0 < r.den) :
    r.log2 = Int.log 2 r.value := by
  obtain ⟨hLow, hHigh⟩ := guess_spec hNum hDen
  unfold log2
  dsimp only
  generalize (r.num.log2 : Int) - r.den.log2 = guess at *
  have hScaled : (r.scale 2 (-guess)).den ≤ (r.scale 2 (-guess)).num ↔
      (2 : ℚ) ^ guess ≤ r.value := by
    have hPos : (0 : ℚ) < (r.scale 2 (-guess)).den := by
      exact_mod_cast den_scale_pos hDen two_pos _
    have hOne : (r.scale 2 (-guess)).den ≤ (r.scale 2 (-guess)).num ↔
        1 ≤ (r.scale 2 (-guess)).value := by
      rw [value, le_div_iff₀ hPos, one_mul]
      exact_mod_cast Iff.rfl
    rw [hOne, value_scale r two_pos, zpow_neg, ← div_eq_mul_inv, Nat.cast_ofNat,
      le_div_iff₀ (zpow_pos two_pos guess), one_mul]
  split
  · next h =>
    exact (log_eq_of_between one_lt_two (hScaled.1 h) hHigh).symm
  · next h =>
    refine (log_eq_of_between one_lt_two hLow ?_).symm
    rw [sub_add_cancel]
    exact not_le.1 fun hLe => h (hScaled.2 hLe)

theorem digitCount_eq {n : Nat} (h : 0 < n) :
    digitCount n = Nat.log 10 n + 1 := by
  have hLe : ∀ k, 0 < k → (digitCount n ≤ k ↔ Nat.log 10 n < k) := by
    intro k hk
    rw [digitCount, Nat.length_toDigits_le_iff (by decide) hk,
      Nat.log_lt_iff_lt_pow (by decide) h.ne']
  have hUp := (hLe (Nat.log 10 n + 1) (Nat.succ_pos _)).2 (Nat.lt_succ_self _)
  have hDown := (hLe (digitCount n) Nat.length_toDigits_pos).1 le_rfl
  omega

end Ratio
end TableGate.Number
