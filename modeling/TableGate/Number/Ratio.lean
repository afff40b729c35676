/-!
# Positive ratios and their rounding

Binary and decimal numbers meet as ratios of natural numbers. This module
scales a ratio by a power of two or ten, finds its binary and decimal
magnitude, and rounds it to a whole number with a half going to the even
neighbour.

## Main results

* `divNearest_le`, `le_divNearest`: the rounded quotient is within one half.
-/

namespace TableGate.Number

/-- A ratio of natural numbers; the denominator is meant to be positive. -/
structure Ratio where
  num : Nat
  den : Nat

/-- The ratio times a power of a base. -/
def Ratio.scale (r : Ratio) (base : Nat) (power : Int) : Ratio :=
  match power with
  | .ofNat n => ⟨r.num * base.pow n, r.den⟩
  | .negSucc n => ⟨r.num, r.den * base.pow (n + 1)⟩

/-- The largest whole number that is not above the ratio. -/
def Ratio.floor (r : Ratio) : Nat := r.num / r.den

/-- The nearest whole number; a half goes to the even neighbour. -/
def divNearest (num den : Nat) : Nat :=
  let quotient := num / den
  let twice := 2 * (num % den)
  if twice < den then quotient
  else if den < twice then quotient + 1
  else if quotient % 2 = 0 then quotient
  else quotient + 1

/-- The nearest whole number; a half goes to the even neighbour. -/
def Ratio.round (r : Ratio) : Nat := divNearest r.num r.den

/-- The exponent of the largest power of two that is not above a positive
ratio. The quotient of the leading powers is off by at most one. -/
def Ratio.log2 (r : Ratio) : Int :=
  let guess : Int := (r.num.log2 : Int) - r.den.log2
  let scaled := r.scale 2 (-guess)
  if scaled.den ≤ scaled.num then guess else guess - 1

/-- The number of decimal digits of a natural number, one for zero. -/
def digitCount (n : Nat) : Nat := (Nat.toDigits 10 n).length

/-- The exponent of the largest power of ten that is not above a ratio of at
least `10 ^ -400`. -/
def Ratio.log10 (r : Ratio) : Int :=
  (digitCount (r.scale 10 400).floor : Int) - 401

/-! ## Rounding -/

theorem divNearest_le {num den : Nat} (h : 0 < den) :
    2 * (den * divNearest num den) ≤ 2 * num + den := by
  have hDiv := Nat.div_add_mod num den
  have hMod := Nat.mod_lt num h
  unfold divNearest
  simp only
  split
  · omega
  · split
    · rw [Nat.mul_add]; omega
    · split
      · omega
      · rw [Nat.mul_add]; omega

theorem le_divNearest {num den : Nat} (h : 0 < den) :
    2 * num ≤ 2 * (den * divNearest num den) + den := by
  have hDiv := Nat.div_add_mod num den
  have hMod := Nat.mod_lt num h
  unfold divNearest
  simp only
  split
  · omega
  · split
    · rw [Nat.mul_add]; omega
    · split
      · omega
      · rw [Nat.mul_add]; omega

end TableGate.Number
