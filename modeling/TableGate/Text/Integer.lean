import TableGate.Text.Blank
import TableGate.Text.Digit
import TableGate.Text.Split

/-!
# Integers as text

A page bound, a planned row count and similar figures arrive as text: an
optional sign and decimal digits of any script, with single underscores
between digits and white space around the whole. White space beyond ASCII
counts, but of ASCII only the six characters from the tabulator to the
carriage return and the space.

An integer of more than 4300 digits is neither read nor written, which bounds
the work one request can ask for. When a text is read the digits are counted
first, so a run that is too long is told apart from one that something else
follows.

## Main results

* `isWritable_iff`: the integers that are written are those with at most 4300
  digits.
-/

namespace TableGate.Text

/-- The most digits an integer has that is read or written as text. -/
def maxIntegerDigits : Nat := 4300

/-! ## Digits -/

/-- The number whose decimal digits these are, most significant first. -/
def ofDigits (ds : List Nat) : Nat := ds.foldl (fun n d => 10 * n + d) 0

/-- The number that ASCII digits stand for. -/
def digitsValue (ds : List Char) : Nat :=
  ofDigits (ds.map fun c => c.toNat - '0'.toNat)

/-- The ASCII digits at the front, and what remains. -/
def spanDigits (cs : List Char) : List Char × List Char :=
  (cs.takeWhile Char.isDigit, cs.dropWhile Char.isDigit)

/-- A text without its underscores, of which none may stand at an end or next
to another. An empty text has none to stand between. -/
def dropUnderscores? (cs : List Char) : Option (List Char) :=
  if (splitOn '_' cs).any List.isEmpty then none
  else some (cs.filter (· != '_'))

/-- Whether a text has a minus sign, and what follows its sign. -/
def splitSign : List Char → Bool × List Char
  | '+' :: rest => (false, rest)
  | '-' :: rest => (true, rest)
  | cs => (false, cs)

/-- An integer of a sign and a size. -/
def signed (negative : Bool) (n : Nat) : Int :=
  if negative then -(n : Int) else n

/-- The integer that an optional sign and ASCII digits stand for, single
underscores between digits allowed. -/
def signedDigits? (cs : List Char) : Option Int :=
  let (negative, body) := splitSign cs
  ((dropUnderscores? body).filter fun ds => ds.all Char.isDigit).map fun ds =>
    signed negative (digitsValue ds)

/-! ## Reading -/

/-- Why a text is no integer: too long a run of digits, or no integer at all. -/
inductive IntegerFault
  | tooManyDigits (count : Nat)
  | malformed
deriving DecidableEq, Repr

/-- The ASCII character that stands for a character of an integer: a digit of
any script is the digit of its value, and white space beyond ASCII a space. -/
def asciiForm (c : Char) : Char :=
  if c.toNat < 0x80 then c
  else if isBlank c then ' '
  else
    match digitValue? c with
    | some d => .ofNat ('0'.toNat + d)
    | none => c

/-- Read an integer of ASCII digits that may stand between ASCII spaces. -/
def readAsciiInteger (cs : List Char) : Except IntegerFault Int :=
  let (negative, body) := splitSign (cs.dropWhile isAsciiSpace)
  let inside (c : Char) : Bool := c.isDigit || c == '_'
  match dropUnderscores? (body.takeWhile inside) with
  | none => .error .malformed
  | some ds =>
      if maxIntegerDigits < ds.length then .error (.tooManyDigits ds.length)
      else if (body.dropWhile inside).all isAsciiSpace then
        .ok (signed negative (digitsValue ds))
      else .error .malformed

/-- Read an integer of digits of any script that may stand between white
space. -/
def readInteger (s : String) : Except IntegerFault Int :=
  readAsciiInteger (s.toList.map asciiForm)

/-! ## Writing -/

/-- The decimal digits of a number, most significant first. -/
def natDigits (n : Nat) : List Char := (Nat.toDigits 10 n)

/-- The decimal text of a number. -/
def natText (n : Nat) : String := .ofList (natDigits n)

/-- The decimal text of an integer, with a minus sign below zero. -/
def intText (i : Int) : String :=
  match i with
  | .ofNat n => natText n
  | .negSucc n => .ofList ('-' :: natDigits (n + 1))

/-- A number with leading zeros up to a width. -/
def padded (width n : Nat) : String :=
  let ds := natDigits n
  .ofList (List.replicate (width - ds.length) '0' ++ ds)

/-- Whether an integer has few enough digits to be written. -/
def isWritable (i : Int) : Bool := i.natAbs < Nat.pow 10 maxIntegerDigits

/-- What is said of an integer with too many digits; of one that was read, how
many they are. -/
def digitLimitMessage (count : Option Nat) : String :=
  "Exceeds the limit (" ++ natText maxIntegerDigits ++
    " digits) for integer string conversion" ++
    (match count with
      | some n => ": value has " ++ natText n ++ " digits"
      | none => "") ++
    "; use sys.set_int_max_str_digits() to increase the limit"

theorem isWritable_iff {i : Int} :
    isWritable i = true ↔ (natDigits i.natAbs).length ≤ maxIntegerDigits := by
  rw [isWritable, decide_eq_true_iff, natDigits, Nat.pow_eq]
  exact (Nat.length_toDigits_le_iff (by decide) (by decide)).symm

end TableGate.Text
