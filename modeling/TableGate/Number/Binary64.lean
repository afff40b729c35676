import TableGate.Number.Ratio
import TableGate.Text.Integer

/-!
# Double precision numbers

A double is kept as what it means: a sign and `mantissa * 2 ^ exponent`, an
infinity, or no number at all. All arithmetic is exact arithmetic on natural
numbers followed by one rounding (`Binary64.ofRatio`), so equality of doubles
is equality of values of this type, the two zeros apart.

A finite value is canonical: its mantissa has 53 bits unless the exponent is
the smallest one, `-1074`. The type has no others, so what is rounded beyond
the canonical values is an infinity (`Binary64.ofParts`).

The decimal text of a double has the fewest digits that read back as the same
double, and of those the digits nearest to it (`Binary64.shortest`). Numbers
from `1e-4` up to below `1e16` are written positionally, all others with an
exponent.
-/

namespace TableGate.Number

namespace Binary64

/-- The smallest exponent of a double. -/
def minExponent : Int := -1074

/-- The largest exponent of a double. -/
def maxExponent : Int := 971

/-- The form of a finite double. -/
structure IsCanonical (mantissa : Nat) (exponent : Int) : Prop where
  mantissa_lt : mantissa < Nat.pow 2 53
  normal : exponent ≠ minExponent → Nat.pow 2 52 ≤ mantissa
  min_le : minExponent ≤ exponent
  le_max : exponent ≤ maxExponent

instance (mantissa : Nat) (exponent : Int) :
    Decidable (IsCanonical mantissa exponent) :=
  decidable_of_iff (mantissa < Nat.pow 2 53 ∧
      (exponent ≠ minExponent → Nat.pow 2 52 ≤ mantissa) ∧
      minExponent ≤ exponent ∧ exponent ≤ maxExponent)
    ⟨fun ⟨hLess, hNormal, hMin, hMax⟩ => ⟨hLess, hNormal, hMin, hMax⟩,
      fun h => ⟨h.mantissa_lt, h.normal, h.min_le, h.le_max⟩⟩

theorem isCanonical_zero : IsCanonical 0 minExponent := by decide

end Binary64

/-- A double: a finite value in its form, an infinity, or no number. -/
inductive Binary64
  | finite (negative : Bool) (mantissa : Nat) (exponent : Int)
      (canonical : Binary64.IsCanonical mantissa exponent)
  | infinity (negative : Bool)
  | nan
deriving DecidableEq, Repr

namespace Binary64

/-- The zero of a sign. -/
def signedZero (negative : Bool) : Binary64 :=
  .finite negative 0 minExponent isCanonical_zero

def zero : Binary64 := signedZero false

/-- The finite value of a mantissa and an exponent, or an infinity where they
are not the form of one. -/
def ofParts (negative : Bool) (mantissa : Nat) (exponent : Int) : Binary64 :=
  if h : IsCanonical mantissa exponent then
    .finite negative mantissa exponent h
  else .infinity negative

/-- The double nearest to a ratio, a half going to the even mantissa. -/
def ofRatio (negative : Bool) (r : Ratio) : Binary64 :=
  if r.num = 0 ∨ r.den = 0 then signedZero negative
  else
    let exponent := max (r.log2 - 52) minExponent
    let mantissa := (r.scale 2 (-exponent)).round
    let (mantissa, exponent) :=
      if mantissa = Nat.pow 2 53 then (Nat.pow 2 52, exponent + 1)
      else (mantissa, exponent)
    ofParts negative mantissa exponent

/-- The double nearest to `digits * 10 ^ power`. Magnitudes far outside the
range of doubles are settled without forming the power. -/
def ofDecimal (negative : Bool) (digits : Nat) (power : Int) : Binary64 :=
  let magnitude := (digitCount digits : Int) + power
  if digits = 0 ∨ magnitude < -330 then signedZero negative
  else if 330 < magnitude then .infinity negative
  else ofRatio negative ((⟨digits, 1⟩ : Ratio).scale 10 power)

/-- The magnitude of `mantissa * 2 ^ exponent`. -/
def magnitude (mantissa : Nat) (exponent : Int) : Ratio :=
  (⟨mantissa, 1⟩ : Ratio).scale 2 exponent

/-- Neither an infinity nor without a number. -/
def isFinite : Binary64 → Bool
  | .finite .. => true
  | _ => false

/-- The whole part, cut toward zero. -/
def truncate? : Binary64 → Option Int
  | .finite negative mantissa exponent _ =>
      let n := (magnitude mantissa exponent).floor
      some (if negative then -(n : Int) else n)
  | _ => none

/-- Whether the value is a whole number. -/
def isWhole : Binary64 → Bool
  | .finite _ mantissa exponent _ =>
      let r := magnitude mantissa exponent
      r.num % r.den == 0
  | _ => false

/-- Both zeros. -/
def isZero : Binary64 → Bool
  | .finite _ mantissa .. => mantissa == 0
  | _ => false

/-! ## Arithmetic -/

def neg : Binary64 → Binary64
  | .finite negative mantissa exponent h =>
      .finite (!negative) mantissa exponent h
  | .infinity negative => .infinity (!negative)
  | .nan => .nan

/-- A signed mantissa over the smallest exponent. -/
private def units (negative : Bool) (mantissa : Nat) (exponent : Int) : Int :=
  let n := mantissa * Nat.pow 2 (exponent - minExponent).toNat
  if negative then -(n : Int) else n

/-- The rounded sum; two zeros give a negative zero only when both are. -/
def add : Binary64 → Binary64 → Binary64
  | .finite s m e _, .finite s2 m2 e2 _ =>
      let total := units s m e + units s2 m2 e2
      if total = 0 then signedZero (s && s2)
      else
        ofRatio (total < 0)
          ((⟨total.natAbs, 1⟩ : Ratio).scale 2 minExponent)
  | .nan, _ => .nan
  | _, .nan => .nan
  | .infinity s, .infinity s2 => if s = s2 then .infinity s else .nan
  | .infinity s, _ => .infinity s
  | _, .infinity s => .infinity s

/-- The rounded difference. -/
def sub (x y : Binary64) : Binary64 := add x y.neg

/-- The rounded product. -/
def mul : Binary64 → Binary64 → Binary64
  | .finite s m e _, .finite s2 m2 e2 _ =>
      ofRatio (s != s2) (magnitude (m * m2) (e + e2))
  | .nan, _ => .nan
  | _, .nan => .nan
  | .infinity s, .finite s2 m .. => if m = 0 then .nan else .infinity (s != s2)
  | .finite s m .., .infinity s2 => if m = 0 then .nan else .infinity (s != s2)
  | .infinity s, .infinity s2 => .infinity (s != s2)

/-! ## Decimal text -/

/-- The digits of `digits * 10 ^ power` and `power`, trailing zeros moved
into the power. At most `fuel` zeros are moved. -/
def stripZeros : Nat → Nat → Int → Nat × Int
  | 0, digits, power => (digits, power)
  | fuel + 1, digits, power =>
      if digits % 10 = 0 then stripZeros fuel (digits / 10) (power + 1)
      else (digits, power)

/-- The decimal with `count` digits next to a positive magnitude that reads
back as the same double: the nearer one if both neighbours do, and at equal
distance the one with an even last digit. -/
def decimalOf? (mantissa : Nat) (exponent : Int) (count : Nat) :
    Option (Nat × Int) :=
  let r := magnitude mantissa exponent
  let power := r.log10 - ((count : Int) - 1)
  let scaled := r.scale 10 (-power)
  let below := scaled.floor
  let readsBack (n : Nat) :=
    ofDecimal false n power = ofParts false mantissa exponent
  let nearer := scaled.round
  let other := if nearer = below then below + 1 else below
  if readsBack nearer then some (nearer, power)
  else if readsBack other then some (other, power)
  else none

/-- The fewest decimal digits that read back as a positive double, nearest to
it, with the power of ten they are multiplied by. Seventeen always suffice. -/
def shortest (mantissa : Nat) (exponent : Int) : Nat × Int :=
  let decimal? := (List.range 17).findSome? fun n =>
    decimalOf? mantissa exponent (n + 1)
  (decimal?.map fun decimal => stripZeros 20 decimal.1 decimal.2).getD (0, 0)

/-- The least decimal exponent written positionally. -/
def positionalFrom : Int := -4

/-- The decimal exponent from which on numbers are written with an exponent. -/
def positionalBelow : Int := 16

/-- The exponent mark, a sign and at least two digits. -/
def exponentText (power : Int) : List Char :=
  'e' :: (if power < 0 then '-' else '+') ::
    (Text.padded 2 power.natAbs).toList

/-- Digits times a power of ten, with a point or an exponent always shown. -/
def decimalText (digits : Nat) (power : Int) : List Char :=
  let ds := Text.natDigits digits
  let lead : Int := ds.length + power - 1
  if positionalFrom ≤ lead ∧ lead < positionalBelow then
    if lead < 0 then
      '0' :: '.' :: List.replicate (-lead - 1).toNat '0' ++ ds
    else
      let whole := (lead + 1).toNat
      if ds.length ≤ whole then
        ds ++ List.replicate (whole - ds.length) '0' ++ ['.', '0']
      else ds.take whole ++ '.' :: ds.drop whole
  else
    match ds with
    | [d] => d :: exponentText lead
    | d :: rest => d :: '.' :: rest ++ exponentText lead
    | [] => []

/-- The text of a double: its shortest digits, `inf`, `-inf` or `nan`. -/
def text : Binary64 → String
  | .finite negative mantissa exponent _ =>
      let body :=
        if mantissa = 0 then ['0', '.', '0']
        else
          let (digits, power) := shortest mantissa exponent
          decimalText digits power
      .ofList (if negative then '-' :: body else body)
  | .infinity false => "inf"
  | .infinity true => "-inf"
  | .nan => "nan"

/-- The value with a fixed number of places, rounded from its exact value
with a half going to the even digit. -/
def fixed (places : Nat) : Binary64 → String
  | .finite negative mantissa exponent _ =>
      let n := ((magnitude mantissa exponent).scale 10 places).round
      let ds := (Text.padded (places + 1) n).toList
      let whole := ds.take (ds.length - places)
      let rest := ds.drop (ds.length - places)
      let body := if places = 0 then whole else whole ++ '.' :: rest
      .ofList (if negative then '-' :: body else body)
  | .infinity false => "inf"
  | .infinity true => "-inf"
  | .nan => "nan"

/-! ## Reading -/

/-- Digits with single underscores between them, or nothing. -/
private def readDigits (cs : List Char) : Option (List Char) :=
  if cs.isEmpty then some []
  else (Text.dropUnderscores? cs).filter fun ds => ds.all Char.isDigit

/-- Digits with an optional point, as a whole number and the number of
places after the point. -/
private def readMantissa (cs : List Char) : Option (Nat × Nat) := do
  let (whole, places) := (Text.cut? '.' cs).getD (cs, [])
  let ds ← readDigits whole
  let ps ← readDigits places
  if ds.isEmpty && ps.isEmpty then none
  else some (Text.digitsValue (ds ++ ps), ps.length)

/-- Read a number text: a sign, digits of any script with an optional point
and exponent, or one of the words for infinity and for no number, blanks
around allowed. -/
def ofText? (s : String) : Option Binary64 := do
  let cs := (Text.trimChars s.toList).map Text.asciiForm
  let (negative, body) := Text.splitSign cs
  let small := String.ofList (body.map Char.toLower)
  if small = "inf" ∨ small = "infinity" then some (.infinity negative)
  else if small = "nan" then some .nan
  else
    let isMark (c : Char) : Bool := c == 'e' || c == 'E'
    let mantissa := body.takeWhile fun c => !isMark c
    let (digits, places) ← readMantissa mantissa
    let power ←
      match body.dropWhile fun c => !isMark c with
      | [] => some 0
      | _ :: rest => Text.signedDigits? rest
    some (ofDecimal negative digits (power - places))

end Binary64
end TableGate.Number
