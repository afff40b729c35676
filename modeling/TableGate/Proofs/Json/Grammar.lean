import TableGate.Proofs.Json.Doubles

/-!
# The grammar of documents

A document is a tree. A tree has a text, a value and a list of the numbers at
its leaves, and keeps every freedom that a writer has: blanks between tokens,
escapes in texts, the marks and signs of powers of ten, names that repeat.
Nothing here knows of the reader, so that what is read can be told from what a
document is.

The three words for numbers that are not finite may stand where a number may.
A tree without them is a document of JSON proper.
-/

namespace TableGate.Json

open Number (Binary64)
open Text (digitsValue)

/-! ## Blanks -/

/-- The blanks between two tokens, possibly none. -/
structure Gap where
  chars : List Char
  blank : ∀ c ∈ chars, isBlank c = true

/-- No blanks. -/
def Gap.none : Gap := ⟨[], List.forall_mem_nil _⟩

/-! ## Texts -/

/-- A character as it stands in a text: itself, an escape of one letter, or
the digits of a code unit, which may be one half of a pair. -/
inductive Glyph
  | plain (c : Char) (quote_free : c ≠ quote) (escape_free : c ≠ backslash)
      (visible : ¬c.toNat < 0x20)
  | short (letter c : Char) (escape : shortEscape? letter = some c)
  | unit (a b d e : Char) (n : Nat)
      (number : Text.hexNumber? [a, b, d, e] = some n)

namespace Glyph

/-- How a glyph is written. -/
def text : Glyph → List Char
  | plain c .. => [c]
  | short letter .. => [backslash, letter]
  | unit a b d e .. => [backslash, 'u', a, b, d, e]

/-- The code point or code unit of a glyph. -/
def point : Glyph → Nat
  | plain c .. => c.toNat
  | short _ c _ => c.toNat
  | unit _ _ _ _ n _ => n

end Glyph

/-- A text between quotes. -/
structure Quoted where
  glyphs : List Glyph

namespace Quoted

/-- The glyphs between their quotes. -/
def text (q : Quoted) : List Char :=
  quote :: (q.glyphs.flatMap Glyph.text ++ [quote])

/-- The characters that the glyphs stand for, pairs joined. -/
def value (q : Quoted) : String :=
  .ofList (Encoding.joinSurrogates (q.glyphs.map Glyph.point))

end Quoted

/-! ## Numbers -/

/-- Decimal digits, at least one. -/
structure Digits where
  chars : List Char
  some : chars ≠ []
  digits : ∀ c ∈ chars, c.isDigit = true

/-- The whole part of a number: a zero, or digits that do not start with
one. -/
structure Whole extends Digits where
  start : chars = ['0'] ∨ chars.head? ≠ Option.some '0'

/-- The sign of a power. -/
inductive Sign
  | none
  | plus
  | minus
deriving DecidableEq

/-- How a sign is written. -/
def Sign.text : Sign → List Char
  | none => []
  | plus => ['+']
  | minus => ['-']

/-- A power of ten: a mark, a sign and digits. -/
structure Power where
  mark : Char
  sign : Sign
  digits : Digits
  isMark : mark = 'e' ∨ mark = 'E'

namespace Power

/-- How a power is written. -/
def text (p : Power) : List Char := p.mark :: (p.sign.text ++ p.digits.chars)

/-- The number a power stands for. -/
def value (p : Power) : Int :=
  let n : Int := digitsValue p.digits.chars
  if p.sign = .minus then -n else n

end Power

/-- The digits of the places, if there are any. -/
def placeDigits : Option Digits → List Char
  | none => []
  | some places => places.chars

/-- The places with their point, if there are any. -/
def placesText : Option Digits → List Char
  | none => []
  | some places => '.' :: places.chars

/-- The power with its mark, if there is one. -/
def powerText : Option Power → List Char
  | none => []
  | some power => power.text

/-- The power of ten, zero if there is none. -/
def powerValue : Option Power → Int
  | none => 0
  | some power => power.value

/-- A number: an integer, a number with places or a power, or a word for one
that is not finite. -/
inductive Numeral
  | integer (negative : Bool) (whole : Whole)
  | decimal (negative : Bool) (whole : Whole) (places : Option Digits)
      (power : Option Power) (fractional : places.isSome ∨ power.isSome)
  | nan
  | infinity (negative : Bool)

namespace Numeral

/-- How a number is written. -/
def text : Numeral → List Char
  | integer negative whole => signText negative ++ whole.chars
  | decimal negative whole places power _ =>
      signText negative ++ (whole.chars ++ (placesText places ++
        powerText power))
  | nan => ['N', 'a', 'N']
  | infinity negative =>
      signText negative ++ ['I', 'n', 'f', 'i', 'n', 'i', 't', 'y']

/-- The value of a number: a double if it has places or a power. -/
def value : Numeral → Value
  | integer negative whole =>
      let n : Int := digitsValue whole.chars
      .int (if negative then -n else n)
  | decimal negative whole places power _ =>
      .float (.ofDecimal negative
        (digitsValue (whole.chars ++ placeDigits places))
        (powerValue power - (placeDigits places).length))
  | nan => .float .nan
  | infinity negative => .float (.infinity negative)

/-- A word for a number that is not finite. -/
def isWord : Numeral → Bool
  | nan | infinity _ => true
  | _ => false

/-- Why a number is refused: an integer with too many digits, or a word where
words are not allowed. -/
def stop? (allowed : Bool) : Numeral → Option Stop
  | integer _ whole =>
      if Text.maxIntegerDigits < whole.chars.length then
        some (.tooManyDigits whole.chars.length)
      else none
  | decimal .. => none
  | nan => if allowed then none else some (.refusedWord "NaN")
  | infinity negative =>
      if allowed then none
      else some (.refusedWord (if negative then "-Infinity" else "Infinity"))

end Numeral

/-! ## Trees -/

/-- The name of a field up to its value: the colon with blanks around it. -/
structure Label where
  name : Quoted
  after : Gap
  before : Gap

/-- How a label is written. -/
def Label.text (label : Label) : List Char :=
  label.name.text ++ (label.after.chars ++ ':' :: label.before.chars)

mutual

/-- What stands for a value. -/
inductive Element
  | null
  | bool (b : Bool)
  | number (n : Numeral)
  | text (q : Quoted)
  | emptyList (inner : Gap)
  | list (inner : Gap) (elements : Elements)
  | emptyObject (inner : Gap)
  | object (inner : Gap) (pairs : Pairs)

/-- The items of an array, of which there is at least one. -/
inductive Elements
  | last (element : Element) (after : Gap)
  | cons (element : Element) (after before : Gap) (rest : Elements)

/-- The fields of an object, of which there is at least one. -/
inductive Pairs
  | last (label : Label) (element : Element) (after : Gap)
  | cons (label : Label) (element : Element) (after before : Gap)
      (rest : Pairs)

end

mutual

/-- The text of an element. -/
def Element.chars : Element → List Char
  | .null => ['n', 'u', 'l', 'l']
  | .bool true => ['t', 'r', 'u', 'e']
  | .bool false => ['f', 'a', 'l', 's', 'e']
  | .number n => n.text
  | .text q => q.text
  | .emptyList inner => '[' :: (inner.chars ++ [']'])
  | .list inner elements => '[' :: (inner.chars ++ (elements.chars ++ [']']))
  | .emptyObject inner => '\x7b' :: (inner.chars ++ ['\x7d'])
  | .object inner pairs =>
      '\x7b' :: (inner.chars ++ (pairs.chars ++ ['\x7d']))

/-- The text of the items of an array, with the blanks before its bracket. -/
def Elements.chars : Elements → List Char
  | .last element after => element.chars ++ after.chars
  | .cons element after before rest =>
      element.chars ++ (after.chars ++ ',' :: (before.chars ++ rest.chars))

/-- The text of the fields of an object, with the blanks before its brace. -/
def Pairs.chars : Pairs → List Char
  | .last label element after =>
      label.text ++ (element.chars ++ after.chars)
  | .cons label element after before rest =>
      label.text ++ (element.chars ++
        (after.chars ++ ',' :: (before.chars ++ rest.chars)))

end

mutual

/-- The value of an element. -/
def Element.value : Element → Value
  | .null => .null
  | .bool b => .bool b
  | .number n => n.value
  | .text q => .text q.value
  | .emptyList _ => .list []
  | .list _ elements => .list elements.values
  | .emptyObject _ => .object []
  | .object _ pairs => .object (Fields.ofPairs pairs.values)

/-- The values of the items of an array. -/
def Elements.values : Elements → List Value
  | .last element _ => [element.value]
  | .cons element _ _ rest => element.value :: rest.values

/-- The names and values of the fields of an object, as they stand. -/
def Pairs.values : Pairs → List (String × Value)
  | .last label element _ => [(label.name.value, element.value)]
  | .cons label element _ _ rest =>
      (label.name.value, element.value) :: rest.values

end

mutual

/-- The numbers of an element, in the order of its text. -/
def Element.numerals : Element → List Numeral
  | .number n => [n]
  | .list _ elements => elements.numerals
  | .object _ pairs => pairs.numerals
  | _ => []

/-- The numbers of the items of an array. -/
def Elements.numerals : Elements → List Numeral
  | .last element _ => element.numerals
  | .cons element _ _ rest => element.numerals ++ rest.numerals

/-- The numbers of the fields of an object. -/
def Pairs.numerals : Pairs → List Numeral
  | .last _ element _ => element.numerals
  | .cons _ element _ _ rest => element.numerals ++ rest.numerals

end

/-! ## Documents -/

/-- An element with blanks around it. -/
structure Document where
  before : Gap := .none
  element : Element
  after : Gap := .none

namespace Document

/-- The text of a document. -/
def text (d : Document) : List Char :=
  d.before.chars ++ (d.element.chars ++ d.after.chars)

/-- The value of a document. -/
def value (d : Document) : Value := d.element.value

/-- The numbers of a document. -/
def numerals (d : Document) : List Numeral := d.element.numerals

/-- A document of JSON proper: no number of it is a word. -/
def IsStrict (d : Document) : Prop := ∀ n ∈ d.numerals, n.isWord = false

/-- The first number that is refused, as the reason for it. -/
def stop? (allowed : Bool) (d : Document) : Option Stop :=
  d.numerals.findSome? (Numeral.stop? allowed)

end Document

end TableGate.Json
