import TableGate.Number.Binary64

/-!
# Decimal numbers

A decimal keeps the places it was written with: `1.10` and `1.1` are different
decimals of the same value. A finite one is a sign, a whole coefficient and a
power of ten. Its text is positional as long as the exponent is not positive
and at most five zeros follow the point before the first digit; otherwise it
has one digit before the point and an exponent.

A decimal that is no number has a sign too, may be signaling, and may carry a
number of its own, zero meaning that it carries none.
-/

namespace TableGate.Number

/-- A decimal: a finite value with its places, an infinity, or no number. -/
inductive Decimal
  | finite (negative : Bool) (coefficient : Nat) (exponent : Int)
  | infinity (negative : Bool)
  | nan (negative signaling : Bool) (payload : Nat)
deriving DecidableEq, Repr

namespace Decimal

/-- The digits of a coefficient with the point after `place` of them; zeros
fill what is missing on either side. -/
def placePoint (ds : List Char) (place : Int) : List Char :=
  if place ≤ 0 then '0' :: '.' :: List.replicate (-place).toNat '0' ++ ds
  else
    let whole := place.toNat
    if ds.length ≤ whole then ds ++ List.replicate (whole - ds.length) '0'
    else ds.take whole ++ '.' :: ds.drop whole

/-- The text of a decimal. -/
def text : Decimal → String
  | .finite negative coefficient exponent =>
      let ds := Text.natDigits coefficient
      let left : Int := exponent + ds.length
      let body :=
        if exponent ≤ 0 ∧ -6 < left then placePoint ds left
        else
          let power := left - 1
          let mark := if power < 0 then ['E', '-'] else ['E', '+']
          placePoint ds 1 ++ mark ++ Text.natDigits power.natAbs
      .ofList (if negative then '-' :: body else body)
  | .infinity negative => (if negative then "-" else "") ++ "Infinity"
  | .nan negative signaling payload =>
      (if negative then "-" else "") ++ (if signaling then "sNaN" else "NaN") ++
        (if payload = 0 then "" else Text.natText payload)

/-- The whole part, cut toward zero. -/
def truncate? : Decimal → Option Int
  | .finite negative coefficient exponent =>
      let n := ((⟨coefficient, 1⟩ : Ratio).scale 10 exponent).floor
      some (if negative then -(n : Int) else n)
  | _ => none

/-- Whether the value is zero, whatever its sign and places. -/
def isZero : Decimal → Bool
  | .finite _ coefficient _ => coefficient == 0
  | _ => false

/-- The nearest double. -/
def toBinary64 : Decimal → Binary64
  | .finite negative coefficient exponent =>
      .ofDecimal negative coefficient exponent
  | .infinity negative => .infinity negative
  | .nan .. => .nan

/-- Read what follows the word for no number: digits or nothing. -/
private def readPayload (negative signaling : Bool) (ds : List Char) :
    Option Decimal :=
  if ds.all Char.isDigit then
    some (.nan negative signaling (Text.digitsValue ds))
  else none

/-- Read a finite decimal after its sign. -/
private def readFinite (negative : Bool) (cs : List Char) : Option Decimal := do
  let isMark (c : Char) : Bool := c == 'e' || c == 'E'
  let mantissa := cs.takeWhile fun c => !isMark c
  let (whole, places) := (Text.cut? '.' mantissa).getD (mantissa, [])
  let ds := whole ++ places
  if ds.isEmpty || !ds.all Char.isDigit then none
  let power ←
    match cs.dropWhile fun c => !isMark c with
    | [] => some 0
    | _ :: rest => Text.signedDigits? rest
  some (.finite negative (Text.digitsValue ds) (power - places.length))

/-- Read the text of a decimal. Its digits may be of any script, blanks may
stand around it, and underscores anywhere in it. -/
def ofText? (s : String) : Option Decimal :=
  let cs := ((Text.trimChars s.toList).filter (· != '_')).map Text.asciiForm
  let (negative, body) := Text.splitSign cs
  match body.map Char.toLower with
  | ['i', 'n', 'f'] | ['i', 'n', 'f', 'i', 'n', 'i', 't', 'y'] =>
      some (.infinity negative)
  | 'n' :: 'a' :: 'n' :: ds => readPayload negative false ds
  | 's' :: 'n' :: 'a' :: 'n' :: ds => readPayload negative true ds
  | _ => readFinite negative body

end Decimal
end TableGate.Number
