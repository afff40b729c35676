import TableGate.Encoding.Detect
import TableGate.Value.Fields

/-!
# Reading JSON documents

The reader works on what remains of the text and returns a value with what
remains after it. A fault names its kind and how much remained where it
arose; the position, line and column of the message are worked out from that
once, for the whole document.

Beyond the grammar of JSON the reader knows three words for numbers that are
not finite, which a caller may refuse; a number literal too large for a double
is infinite. Of a repeated field name the last value counts, at the place of
the first. An integer of more than 4300 digits is refused. A surrogate escape
without its partner is read as the replacement character.

## Main results

* `skipBlanks_length_le`: skipping blanks never makes a text longer.
-/

namespace TableGate.Json

open Number (Binary64)
open Text (digitsValue spanDigits)

/-- What is wrong with a document. -/
inductive FaultKind
  | expectedValue
  | expectedName
  | expectedColon
  | expectedComma
  | extraData
  | unterminatedText
  | controlCharacter
  | invalidEscape
  | invalidUnicodeEscape
  | byteOrderMark
deriving DecidableEq, Repr

/-- The wording of a fault. -/
def FaultKind.text : FaultKind → String
  | .expectedValue => "Expecting value"
  | .expectedName => "Expecting property name enclosed in double quotes"
  | .expectedColon => "Expecting ':' delimiter"
  | .expectedComma => "Expecting ',' delimiter"
  | .extraData => "Extra data"
  | .unterminatedText => "Unterminated string starting at"
  | .controlCharacter => "Invalid control character at"
  | .invalidEscape => "Invalid \\escape"
  | .invalidUnicodeEscape => "Invalid \\uXXXX escape"
  | .byteOrderMark => "Unexpected UTF-8 BOM (decode using utf-8-sig)"

/-- Why reading stops: a fault with the length of what remained, an integer
with too many digits, or a word that is no JSON. -/
inductive Stop
  | fault (kind : FaultKind) (remaining : Nat)
  | tooManyDigits (count : Nat)
  | refusedWord (word : String)
deriving DecidableEq, Repr

/-- The quote around a text. -/
abbrev quote : Char := '\x22'

/-- The character that starts an escape. -/
abbrev backslash : Char := '\x5c'

/-! ## Blanks -/

/-- The four blanks of JSON. -/
def isBlank (c : Char) : Bool :=
  c == ' ' || c == '\t' || c == '\n' || c == '\r'

/-- What remains after the blanks at the front. -/
def skipBlanks (cs : List Char) : List Char := cs.dropWhile isBlank

theorem skipBlanks_length_le (cs : List Char) :
    (skipBlanks cs).length ≤ cs.length := by
  have h := (List.dropWhile_suffix (l := cs) isBlank).length_le
  simpa [skipBlanks] using h

/-! ## Texts -/

/-- The character of an escape of one letter. -/
def shortEscape? (c : Char) : Option Char :=
  if c = quote ∨ c = backslash ∨ c = '/' then some c
  else if c = 'b' then some '\x08'
  else if c = 'f' then some '\x0c'
  else if c = 'n' then some '\n'
  else if c = 'r' then some '\r'
  else if c = 't' then some '\t'
  else none

/-- Read up to the closing quote. Characters are given as code points, so
that the halves of an escaped surrogate pair can still be joined; `start` is
what remained at the opening quote. -/
def readPoints (start : Nat) : List Char →
    Except Stop (List Nat × List Char)
  | [] => .error (.fault .unterminatedText start)
  | c :: rest =>
      if c = quote then .ok ([], rest)
      else if c = backslash then
        match rest with
        | [] => .error (.fault .unterminatedText start)
        | 'u' :: a :: b :: d :: e :: more =>
            match Text.hexNumber? [a, b, d, e] with
            | some point =>
                if more.isEmpty then
                  .error (.fault .invalidUnicodeEscape rest.length)
                else
                  match readPoints start more with
                  | .ok (points, remaining) => .ok (point :: points, remaining)
                  | .error stop => .error stop
            | none => .error (.fault .invalidUnicodeEscape rest.length)
        | e :: more =>
            if e = 'u' then .error (.fault .invalidUnicodeEscape rest.length)
            else
              match shortEscape? e with
              | some escaped =>
                  match readPoints start more with
                  | .ok (points, remaining) =>
                      .ok (escaped.toNat :: points, remaining)
                  | .error stop => .error stop
              | none => .error (.fault .invalidEscape (rest.length + 1))
      else if c.toNat < 0x20 then
        .error (.fault .controlCharacter (rest.length + 1))
      else
        match readPoints start rest with
        | .ok (points, remaining) => .ok (c.toNat :: points, remaining)
        | .error stop => .error stop

/-- Read a text whose opening quote has been read. -/
def readText (cs : List Char) : Except Stop (String × List Char) := do
  let (points, remaining) ← readPoints (cs.length + 1) cs
  return (.ofList (Encoding.joinSurrogates points), remaining)

/-! ## Numbers -/

/-- The digits after a point, none if there is no point with a digit. -/
def readPlaces (cs : List Char) : List Char × List Char :=
  match cs with
  | '.' :: rest =>
      match spanDigits rest with
      | ([], _) => ([], cs)
      | found => found
  | _ => ([], cs)

/-- The power of ten after an exponent mark, if there is one with a digit. -/
def readPower? (cs : List Char) : Option (Int × List Char) :=
  match cs with
  | mark :: rest =>
      if mark = 'e' ∨ mark = 'E' then
        let (negative, body) :=
          match rest with
          | '-' :: more => (true, more)
          | '+' :: more => (false, more)
          | _ => (false, rest)
        match spanDigits body with
        | ([], _) => none
        | (ds, remaining) =>
            let n : Int := digitsValue ds
            some (if negative then -n else n, remaining)
      else none
  | [] => none

/-- A power without a sign is read as digits from its mark on. -/
theorem readPower?_unsigned {mark c : Char} (hMark : mark = 'e' ∨ mark = 'E')
    (hMinus : c ≠ '-') (hPlus : c ≠ '+') (rest : List Char) :
    readPower? (mark :: c :: rest) =
      match spanDigits (c :: rest) with
      | ([], _) => none
      | (ds, remaining) => some ((digitsValue ds : Int), remaining) := by
  unfold readPower?
  simp only [if_pos hMark, List.cons.injEq, hMinus, hPlus, false_and, imp_self,
    implies_true, Bool.false_eq_true, if_false]

/-- Whether a literal has a minus sign, and what follows the sign. -/
def splitMinus : List Char → Bool × List Char
  | '-' :: rest => (true, rest)
  | cs => (false, cs)

/-- The whole part at the front: a zero alone, or digits. -/
def readWhole : List Char → List Char × List Char
  | '0' :: rest => (['0'], rest)
  | cs => spanDigits cs

/-- Read a number literal. One with places or a power is a double, any other
an integer; without a digit at the front there is none. -/
def readNumber (cs : List Char) : Except Stop (Value × List Char) :=
  let (negative, body) := splitMinus cs
  let (whole, afterWhole) := readWhole body
  if whole.isEmpty then .error (.fault .expectedValue cs.length)
  else
    let (places, afterPlaces) := readPlaces afterWhole
    match places, readPower? afterPlaces with
    | [], none =>
        if Text.maxIntegerDigits < whole.length then
          .error (.tooManyDigits whole.length)
        else
          let n : Int := digitsValue whole
          .ok (.int (if negative then -n else n), afterWhole)
    | _, power =>
        let (exponent, remaining) := power.getD (0, afterPlaces)
        .ok (.float (.ofDecimal negative (digitsValue (whole ++ places))
          (exponent - places.length)), remaining)

/-! ## Values -/

/-- A number that is not finite, if such words are allowed. -/
def constant (allowed : Bool) (word : String) (x : Binary64)
    (remaining : List Char) : Except Stop (Value × List Char) :=
  if allowed then .ok (.float x, remaining) else .error (.refusedWord word)

mutual

/-- Read the value at the front. A call for items reads nothing before it
calls for the first of them, any other reads a character; so `fuel` above
twice the length of the text is never used up. -/
def readValue (allowed : Bool) :
    (fuel : Nat) → List Char → Except Stop (Value × List Char)
  | 0, cs => .error (.fault .expectedValue cs.length)
  | fuel + 1, cs =>
      match cs with
      | '\x22' :: rest =>
          match readText rest with
          | .ok (text, remaining) => .ok (.text text, remaining)
          | .error stop => .error stop
      | '\x7b' :: rest =>
          match skipBlanks rest with
          | '\x7d' :: remaining => .ok (.object [], remaining)
          | inner =>
              match readFields allowed fuel inner with
              | .ok (fields, remaining) =>
                  .ok (.object (Fields.ofPairs fields), remaining)
              | .error stop => .error stop
      | '[' :: rest =>
          match skipBlanks rest with
          | ']' :: remaining => .ok (.list [], remaining)
          | inner =>
              match readItems allowed fuel inner with
              | .ok (items, remaining) => .ok (.list items, remaining)
              | .error stop => .error stop
      | 'n' :: 'u' :: 'l' :: 'l' :: remaining => .ok (.null, remaining)
      | 't' :: 'r' :: 'u' :: 'e' :: remaining => .ok (.bool true, remaining)
      | 'f' :: 'a' :: 'l' :: 's' :: 'e' :: remaining =>
          .ok (.bool false, remaining)
      | 'N' :: 'a' :: 'N' :: remaining => constant allowed "NaN" .nan remaining
      | 'I' :: 'n' :: 'f' :: 'i' :: 'n' :: 'i' :: 't' :: 'y' :: remaining =>
          constant allowed "Infinity" (.infinity false) remaining
      | '-' :: 'I' :: 'n' :: 'f' :: 'i' :: 'n' :: 'i' :: 't' :: 'y' ::
          remaining =>
          constant allowed "-Infinity" (.infinity true) remaining
      | _ => readNumber cs

/-- Read the items of an array up to its closing bracket, the first of them
at the front. -/
def readItems (allowed : Bool) :
    (fuel : Nat) → List Char → Except Stop (List Value × List Char)
  | 0, cs => .error (.fault .expectedValue cs.length)
  | fuel + 1, cs =>
      match readValue allowed fuel cs with
      | .error stop => .error stop
      | .ok (item, afterItem) =>
          match skipBlanks afterItem with
          | ']' :: remaining => .ok ([item], remaining)
          | ',' :: rest =>
              match readItems allowed fuel (skipBlanks rest) with
              | .ok (items, remaining) => .ok (item :: items, remaining)
              | .error stop => .error stop
          | rest => .error (.fault .expectedComma rest.length)

/-- Read the fields of an object up to its closing brace, the first name at
the front. -/
def readFields (allowed : Bool) :
    (fuel : Nat) → List Char →
      Except Stop (List (String × Value) × List Char)
  | 0, cs => .error (.fault .expectedName cs.length)
  | fuel + 1, cs =>
      match cs with
      | '\x22' :: rest =>
          match readText rest with
          | .error stop => .error stop
          | .ok (name, afterName) =>
              match skipBlanks afterName with
              | ':' :: afterColon =>
                  match readValue allowed fuel (skipBlanks afterColon) with
                  | .error stop => .error stop
                  | .ok (value, afterValue) =>
                      match skipBlanks afterValue with
                      | '\x7d' :: remaining =>
                          .ok ([(name, value)], remaining)
                      | ',' :: more =>
                          match readFields allowed fuel (skipBlanks more) with
                          | .ok (fields, remaining) =>
                              .ok ((name, value) :: fields, remaining)
                          | .error stop => .error stop
                      | rest => .error (.fault .expectedComma rest.length)
              | rest => .error (.fault .expectedColon rest.length)
      | _ => .error (.fault .expectedName cs.length)

end

/-! ## Documents -/

/-- Why there is no document: a fault at a place, an integer with too many
digits, a word that is no JSON, or bytes that are no text. -/
inductive ReadError
  | malformed (kind : FaultKind) (line column position : Nat)
  | tooManyDigits (count : Nat)
  | refusedWord (word : String)
  | undecodable (error : Encoding.DecodeError)
deriving DecidableEq, Repr

/-- The wording of a document that cannot be read. -/
def ReadError.message : ReadError → String
  | .malformed kind line column position =>
      kind.text ++ ": line " ++ Text.natText line ++ " column " ++
        Text.natText column ++ " (char " ++ Text.natText position ++ ")"
  | .tooManyDigits count => Text.digitLimitMessage (some count)
  | .refusedWord word => "not a JSON literal: " ++ word
  | .undecodable error => error.message

/-- The fault at a position, with its line and column. -/
def ReadError.locate (cs : List Char) (kind : FaultKind) (position : Nat) :
    ReadError :=
  let before := cs.take position
  let lastLine := before.reverse.takeWhile (· != '\n')
  .malformed kind (before.count '\n' + 1) (lastLine.length + 1) position

/-- Read the value a text consists of, blanks around it allowed. -/
def readAll (allowed : Bool) (cs : List Char) : Except Stop Value := do
  let (value, rest) ← readValue allowed (2 * cs.length + 1) (skipBlanks cs)
  match skipBlanks rest with
  | [] => return value
  | extra => throw (.fault .extraData extra.length)

/-- Read a document; `allowed` says whether it may hold the words for numbers
that are not finite. -/
def read (allowed : Bool) (cs : List Char) : Except ReadError Value :=
  match readAll allowed cs with
  | .ok value => .ok value
  | .error (.fault kind remaining) =>
      .error (.locate cs kind (cs.length - remaining))
  | .error (.tooManyDigits count) => .error (.tooManyDigits count)
  | .error (.refusedWord word) => .error (.refusedWord word)

/-- Read a document given as text, which must not start with a byte order
mark. -/
def readString (allowed : Bool) (s : String) : Except ReadError Value :=
  let cs := s.toList
  if cs.head? = some '\ufeff' then .error (.locate cs .byteOrderMark 0)
  else read allowed cs

/-- Read a document given as bytes. -/
def readBytes (allowed : Bool) (bytes : Bytes) : Except ReadError Value :=
  match Encoding.decodeDocument bytes with
  | .ok cs => read allowed cs
  | .error error => .error (.undecodable error)

end TableGate.Json
