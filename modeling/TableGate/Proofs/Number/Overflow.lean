import TableGate.Proofs.Number.Binary64

/-!
# Numbers too large for a double

The largest finite double has all 53 bits set at the largest exponent. Half a
unit above it the doubles end: a number from there on is rounded to an
infinity, the half itself too, since its even neighbour is the one that does
not exist. Any smaller number is rounded to a finite double.

## Main results

* `ofRatio_eq_infinity_iff`, `ofDecimal_eq_infinity_iff`: exactly the numbers
  from that bound on become infinities.
-/

namespace TableGate.Number.Binary64

variable {negative sign : Bool} {r : Ratio}

/-- The smallest magnitude that is rounded to an infinity. -/
def firstInfinite : ℚ := (2 ^ 53 - 1 / 2) * 2 ^ maxExponent

/-! ## Ratios -/

/-- Half a unit below a power of two a ratio is rounded up to it. -/
theorem round_eq_two_pow_iff (hDen : 0 < r.den) (hHigh : r.value < 2 ^ 53) :
    r.round = 2 ^ 53 ↔ (2 : ℚ) ^ 53 - 1 / 2 ≤ r.value := by
  constructor
  · intro hRound
    have hNear := abs_le.1 (Ratio.abs_round_sub_le hDen)
    rw [hRound] at hNear
    push_cast at hNear
    linarith
  · intro hLow
    rcases hLow.lt_or_eq with hAbove | hTie
    · refine Ratio.round_eq_of_near hDen ?_
      rw [abs_lt]
      push_cast
      constructor <;> linarith
    · -- The odd neighbour below loses the tie.
      have hValue : r.value = (⟨2 ^ 54 - 1, 2⟩ : Ratio).value := by
        rw [← hTie, Ratio.value]
        norm_num
      rw [Ratio.round_congr hDen two_pos hValue]
      decide

theorem ofParts_eq_infinity_iff {mantissa : Nat} {exponent : Int} :
    ofParts negative mantissa exponent = .infinity sign ↔
      sign = negative ∧ ¬IsCanonical mantissa exponent := by
  unfold ofParts
  split
  · next hForm =>
      refine iff_of_false (fun h => ?_) fun h => h.2 hForm
      cases h
  · next hForm => rw [infinity.injEq, eq_comm, and_iff_left hForm]

/-- A rounded mantissa only becomes an infinity beyond the largest
exponent. -/
theorem ofRounded_eq_infinity_iff {mantissa : Nat} {exponent : Int}
    (hMin : minExponent ≤ exponent) (hMost : mantissa ≤ 2 ^ 53)
    (hNormal : exponent ≠ minExponent → 2 ^ 52 ≤ mantissa) :
    ofRounded negative mantissa exponent = .infinity sign ↔
      sign = negative ∧ (maxExponent < exponent ∨
        maxExponent = exponent ∧ mantissa = 2 ^ 53) := by
  unfold ofRounded
  split
  · next hFull =>
      rw [ofParts_eq_infinity_iff, and_congr_right_iff]
      rintro -
      constructor
      · intro hForm
        by_contra hLess
        exact hForm ⟨by decide, fun _ => le_rfl, by omega, by omega⟩
      · intro hOver hForm
        have hMax := hForm.le_max
        omega
  · next hPart =>
      rw [ofParts_eq_infinity_iff, and_congr_right_iff]
      rintro -
      constructor
      · intro hForm
        by_contra hLess
        exact hForm ⟨lt_of_le_of_ne hMost hPart, hNormal, hMin, by omega⟩
      · intro hOver hForm
        have hMax := hForm.le_max
        omega

/-- Exactly the ratios from the bound on are rounded to an infinity. -/
theorem ofRatio_eq_infinity_iff (hNum : 0 < r.num) (hDen : 0 < r.den) :
    ofRatio negative r = .infinity sign ↔
      sign = negative ∧ firstInfinite ≤ r.value := by
  obtain ⟨hHigh, hLow⟩ := scaled_bounds hNum hDen
  have hScale := Ratio.value_scale r two_pos (-roundingExponent r)
  have hScaledDen := Ratio.den_scale_pos hDen two_pos (-roundingExponent r)
  have hRound := round_eq_two_pow_iff hScaledDen hHigh
  obtain ⟨hMost, hNormal⟩ := rounded_bounds hNum hDen
  have hMin : minExponent ≤ roundingExponent r := le_max_right _ _
  rw [ofRatio_eq negative hNum hDen,
    ofRounded_eq_infinity_iff hMin hMost hNormal, and_congr_right_iff]
  rintro -
  rw [hRound]
  rw [zpow_neg, ← div_eq_mul_inv, Nat.cast_ofNat] at hScale
  rw [hScale] at hHigh hLow ⊢
  clear hMost hNormal hMin
  generalize roundingExponent r = e at *
  have hPower : (0 : ℚ) < 2 ^ e := zpow_pos two_pos _
  rw [div_lt_iff₀ hPower] at hHigh
  rw [le_div_iff₀ hPower] at hLow ⊢
  rw [firstInfinite]
  rcases lt_trichotomy maxExponent e with hAbove | rfl | hBelow
  · have hNormal : e ≠ minExponent := by
      rintro rfl
      exact absurd hAbove (by decide)
    have hNext : (2 : ℚ) ^ (maxExponent + 1) ≤ 2 ^ e :=
      zpow_le_zpow_right₀ one_le_two hAbove
    rw [zpow_add_one₀ two_ne_zero] at hNext
    have hMax : (0 : ℚ) < 2 ^ maxExponent := zpow_pos two_pos _
    refine iff_of_true (Or.inl hAbove) ?_
    linarith [hLow hNormal]
  · rw [lt_self_iff_false, false_or, eq_self_iff_true, true_and]
  · have hNext : (2 : ℚ) ^ (e + 1) ≤ 2 ^ maxExponent :=
      zpow_le_zpow_right₀ one_le_two hBelow
    rw [zpow_add_one₀ two_ne_zero] at hNext
    refine iff_of_false ?_ ?_
    · omega
    · rw [not_le]
      linarith

theorem ofRatio_ne_nan (negative : Bool) (r : Ratio) :
    ofRatio negative r ≠ .nan := by
  unfold ofRatio ofParts
  dsimp only
  split_ifs
  all_goals
    intro h
    cases h

/-! ## Decimals -/

theorem digitCount_bounds {digits : Nat} (h : 0 < digits) (power : Int) :
    (10 : ℚ) ^ ((digitCount digits : Int) + power - 1) ≤
        digits * 10 ^ power ∧
      digits * 10 ^ power < (10 : ℚ) ^ ((digitCount digits : Int) + power) := by
  have hTen : (10 : ℚ) ≠ 0 := by norm_num
  have hPower : (0 : ℚ) < 10 ^ power := zpow_pos (by norm_num) _
  have hCount := Ratio.digitCount_eq h
  have hLow : (10 : ℚ) ^ Nat.log 10 digits ≤ digits := by
    exact_mod_cast Nat.pow_log_le_self 10 h.ne'
  have hHigh : (digits : ℚ) < 10 ^ (Nat.log 10 digits + 1) := by
    exact_mod_cast Nat.lt_pow_succ_log_self (by decide) digits
  rw [hCount]
  constructor
  · have hExponent : ((Nat.log 10 digits + 1 : Nat) : Int) + power - 1 =
        (Nat.log 10 digits : Int) + power := by
      push_cast
      ring
    rw [hExponent, zpow_add₀ hTen, zpow_natCast]
    gcongr
  · rw [zpow_add₀ hTen, zpow_natCast]
    gcongr

theorem ten_pow_lt_two_pow : 10 ^ 308 + 2 ^ 970 < 2 ^ 1024 := by
  decide +kernel

theorem firstInfinite_eq : firstInfinite = 2 ^ 1024 - 2 ^ 970 := by
  have hPower : (2 : ℚ) ^ maxExponent = 2 ^ 970 * 2 := by
    rw [← pow_succ, ← zpow_natCast]
    rfl
  have hTop : (2 : ℚ) ^ 1024 = 2 ^ 53 * (2 ^ 970 * 2) := by
    rw [← pow_succ, ← pow_add]
  rw [firstInfinite, hPower, hTop]
  generalize (2 : ℚ) ^ 970 = half
  ring

/-- The bound has 309 digits. -/
theorem firstInfinite_bounds :
    (10 : ℚ) ^ (308 : Int) < firstInfinite ∧
      firstInfinite < 10 ^ (309 : Int) := by
  have hLow : (10 : ℚ) ^ (308 : Int) + 2 ^ 970 < 2 ^ 1024 := by
    exact_mod_cast ten_pow_lt_two_pow
  have hHigh : (2 : ℚ) ^ 1024 < 10 ^ (309 : Int) := by
    exact_mod_cast two_pow_lt_ten_pow
  have hPos : (0 : ℚ) < 2 ^ 970 := by positivity
  rw [firstInfinite_eq]
  exact ⟨lt_sub_iff_add_lt.2 hLow, (sub_lt_self _ hPos).trans hHigh⟩

/-- Exactly the decimals from the bound on are read as an infinity. -/
theorem ofDecimal_eq_infinity_iff {digits : Nat} {power : Int} :
    ofDecimal negative digits power = .infinity sign ↔
      sign = negative ∧ firstInfinite ≤ digits * 10 ^ power := by
  have hTen : (1 : ℚ) ≤ 10 := by norm_num
  obtain ⟨hLeast, hMost⟩ := firstInfinite_bounds
  rcases Nat.eq_zero_or_pos digits with rfl | hPos
  · rw [ofDecimal_zero]
    refine iff_of_false nofun fun h => ?_
    rw [Nat.cast_zero, zero_mul] at h
    exact absurd (zpow_pos (by norm_num) _) (hLeast.trans_le h.2).asymm
  obtain ⟨hLow, hHigh⟩ := digitCount_bounds hPos power
  have hRatio : ofRatio negative (decimalRatio digits power) =
      .infinity sign ↔ sign = negative ∧
        firstInfinite ≤ (decimalRatio digits power).value :=
    ofRatio_eq_infinity_iff (num_decimalRatio hPos power)
      (den_decimalRatio digits power)
  rw [value_decimalRatio] at hRatio
  unfold ofDecimal
  dsimp only
  split_ifs with hSmall hLarge
  · refine iff_of_false nofun fun h => ?_
    have hTiny : (10 : ℚ) ^ ((digitCount digits : Int) + power) ≤
        10 ^ (308 : Int) := zpow_le_zpow_right₀ hTen (by omega)
    linarith
  · have hHuge : (10 : ℚ) ^ (309 : Int) ≤
        10 ^ ((digitCount digits : Int) + power - 1) :=
      zpow_le_zpow_right₀ hTen (by omega)
    rw [infinity.injEq, eq_comm, and_iff_left]
    linarith
  · exact hRatio

theorem ofDecimal_ne_nan (negative : Bool) (digits : Nat) (power : Int) :
    ofDecimal negative digits power ≠ .nan := by
  unfold ofDecimal
  dsimp only
  split_ifs
  · nofun
  · nofun
  · exact ofRatio_ne_nan _ _

/-- Every other decimal is read as a finite double. -/
theorem isFinite_ofDecimal {digits : Nat} {power : Int}
    (h : digits * 10 ^ power < firstInfinite) :
    (ofDecimal negative digits power).isFinite = true := by
  cases hDouble : ofDecimal negative digits power with
  | finite => rfl
  | infinity sign =>
      exact absurd (ofDecimal_eq_infinity_iff.1 hDouble).2 (not_le.2 h)
  | nan => exact absurd hDouble (ofDecimal_ne_nan negative digits power)

end TableGate.Number.Binary64
