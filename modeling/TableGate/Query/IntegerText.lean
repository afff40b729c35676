import TableGate.Error

/-!
# Integers in the texts of a document

A document may give an integer as text. A text that is an integer literal, an
optional minus sign and digits without leading zeros, is read as it stands. Any
other text is brought into that form first: white space around it, a plus sign,
leading zeros, a fraction of zeros and single underscores between digits are
dropped. What is no literal then is malformed.

Leading zeros, with underscores among them, may stand before a minus sign and
are dropped there. Zeros that follow a minus sign stay, so that `0-7` is read
and `-07` is malformed.

## Main results

* `read_eq_ok_of_literal`: a literal is read as the integer it stands for.
-/

namespace TableGate.IntegerText

/-- Read a literal. One of more than 4300 characters up to the last digit is
too large whatever follows. -/
def literal (cs : List Char) : Shaped Int :=
  let (negative, body) :=
    match cs with
    | '-' :: rest => (true, rest)
    | _ => (false, cs)
  match body with
  | ['0'] => .ok 0
  | '0' :: _ => .error .malformedInteger
  | _ =>
      let (digits, rest) := Text.spanDigits body
      if Text.maxIntegerDigits < cs.length - rest.length then .error .tooLarge
      else if digits.isEmpty || !rest.isEmpty then .error .malformedInteger
      else .ok (Text.signed negative (Text.digitsValue digits))

/-- A text without its plus sign, which no minus sign may follow. -/
def dropPlus : List Char → Option (List Char)
  | '+' :: '-' :: _ => none
  | '+' :: rest => some rest
  | cs => some cs

/-- A text without leading zeros and the underscores among them. When nothing
or a point follows them, the last of them stays. -/
def dropZeros : List Char → Option (List Char)
  | [] => none
  | c :: rest =>
      if c = '0' then
        let leading (c : Char) : Bool := c == '0' || c == '_'
        let last := (rest.takeWhile leading).getLast?.getD '0'
        match rest.dropWhile leading with
        | [] => some [last]
        | d :: more =>
            if d = '.' then some (last :: d :: more)
            else if d.isDigit || d = '-' then some (d :: more)
            else none
      else if c.isDigit || c = '-' then some (c :: rest)
      else none

/-- A text without a fraction of one or more zeros. -/
def dropZeroFraction (cs : List Char) : List Char :=
  match Text.cut? '.' cs with
  | some (whole, places) =>
      if !places.isEmpty && places.all (· == '0') then whole else cs
  | none => cs

/-- The literal a text stands for, if it has the form of one. -/
def simplify? (cs : List Char) : Option (List Char) := do
  let cs ← dropPlus (Text.stripChars Text.isWhiteSpace cs)
  Text.dropUnderscores? (dropZeroFraction (← dropZeros cs))

/-- Read an integer. A text that is too long is told apart only if it needs no
change. -/
def read (s : String) : Shaped Int :=
  match literal s.toList with
  | .error .malformedInteger =>
      match (simplify? s.toList).map literal with
      | some (.ok n) => .ok n
      | _ => .error .malformedInteger
  | outcome => outcome

theorem read_eq_ok_of_literal {s : String} {n : Int}
    (h : literal s.toList = .ok n) : read s = .ok n := by
  simp [read, h]

end TableGate.IntegerText
