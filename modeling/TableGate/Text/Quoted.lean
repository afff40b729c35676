import TableGate.Text.Digit
import TableGate.Text.PrintableTable

/-!
# Quoted text and quoted bytes

Messages and log lines show a value the way it would be written in source
code. A text stands between single quotes, or between double quotes when it
holds a single quote and no double quote; the enclosing quote, the backslash
and everything that has no visible form is escaped. Bytes are shown the same
way after a `b`, with every byte outside printable ASCII as two hexadecimal
digits.
-/

namespace TableGate.Text

/-- A character with a visible form; of the blanks only the space has one. -/
def isPrintable (c : Char) : Bool :=
  if c.toNat < 127 then 32 ≤ c.toNat else inRanges printableRanges c

/-- The quote that encloses a text unless the text holds one. -/
def singleQuote : Char := '\x27'

/-- The quote that takes the place of the single one. -/
def doubleQuote : Char := '\x22'

/-- The quote that encloses a text. -/
def enclosingQuote (cs : List Char) : Char :=
  if cs.contains singleQuote && !cs.contains doubleQuote then doubleQuote
  else singleQuote

/-- One character of a quoted text. -/
def quotedChar (quote c : Char) : List Char :=
  if c = quote ∨ c = '\\' then ['\\', c]
  else if c = '\n' then ['\\', 'n']
  else if c = '\r' then ['\\', 'r']
  else if c = '\t' then ['\\', 't']
  else if isPrintable c then [c]
  else if c.toNat < 0x100 then '\\' :: 'x' :: hexDigits 2 c.toNat
  else if c.toNat < 0x10000 then '\\' :: 'u' :: hexDigits 4 c.toNat
  else '\\' :: 'U' :: hexDigits 8 c.toNat

/-- A text between quotes, with escapes where they are needed. -/
def quotedChars (cs : List Char) : List Char :=
  let quote := enclosingQuote cs
  quote :: cs.flatMap (quotedChar quote) ++ [quote]

/-- A text between quotes, with escapes where they are needed. -/
def quoted (s : String) : String := .ofList (quotedChars s.toList)

/-- One byte between quotes. -/
def quotedByte (quote : Char) (b : UInt8) : List Char :=
  let c := Char.ofNat b.toNat
  if c = quote ∨ c = '\\' then ['\\', c]
  else if c = '\n' then ['\\', 'n']
  else if c = '\r' then ['\\', 'r']
  else if c = '\t' then ['\\', 't']
  else if 32 ≤ b.toNat ∧ b.toNat < 127 then [c]
  else '\\' :: 'x' :: hexDigits 2 b.toNat

/-- Bytes between quotes, after the letter that marks them as bytes. -/
def quotedBytes (bs : List UInt8) : String :=
  let quote := enclosingQuote (bs.map fun b => Char.ofNat b.toNat)
  .ofList ('b' :: quote :: bs.flatMap (quotedByte quote) ++ [quote])

end TableGate.Text
