import TableGate.Encoding.Utf8
import TableGate.Text.Integer
import TableGate.Text.Digit

/-!
# The encoding of a document

A JSON document that arrives as bytes is UTF-8, UTF-16 or UTF-32. A byte order
mark tells which; without one the zero bytes among the first four do, since a
document starts with two ASCII characters. A surrogate that stands alone has
no character and is read as the replacement character.
-/

namespace TableGate.Encoding

/-- The encodings of a document. -/
inductive Charset
  | utf8
  | utf16 (bigEndian : Bool)
  | utf32 (bigEndian : Bool)
deriving DecidableEq, Repr

/-- The name of a charset in messages. -/
def Charset.name : Charset → String
  | .utf8 => "utf-8"
  | .utf16 false => "utf-16-le"
  | .utf16 true => "utf-16-be"
  | .utf32 false => "utf-32-le"
  | .utf32 true => "utf-32-be"

/-- The byte order marks. A longer one comes before the one it starts with. -/
def marks : List (Bytes × Charset) :=
  [([0x00, 0x00, 0xfe, 0xff], .utf32 true),
    ([0xff, 0xfe, 0x00, 0x00], .utf32 false),
    ([0xfe, 0xff], .utf16 true),
    ([0xff, 0xfe], .utf16 false),
    ([0xef, 0xbb, 0xbf], .utf8)]

/-- The encoding of a document without a mark. -/
def unmarked : Bytes → Charset
  | a :: b :: c :: d :: _ =>
      if a = 0 then if b = 0 then .utf32 true else .utf16 true
      else if b = 0 then if c = 0 ∧ d = 0 then .utf32 false else .utf16 false
      else .utf8
  | [a, b] =>
      if a = 0 then .utf16 true else if b = 0 then .utf16 false else .utf8
  | _ => .utf8

/-- The encoding of a document and the length of its byte order mark. -/
def detect (bytes : Bytes) : Charset × Nat :=
  match marks.find? fun mark => mark.1.isPrefixOf bytes with
  | some (mark, charset) => (charset, mark.length)
  | none => (unmarked bytes, 0)

/-- The number that two bytes form. -/
def pairValue (bigEndian : Bool) (a b : UInt8) : Nat :=
  if bigEndian then a.toNat * 256 + b.toNat else b.toNat * 256 + a.toNat

/-- The number that four bytes form. -/
def quadValue (bigEndian : Bool) (a b c d : UInt8) : Nat :=
  if bigEndian then pairValue true a b * 65536 + pairValue true c d
  else pairValue false c d * 65536 + pairValue false a b

/-- The first half of a surrogate pair. -/
def isHighSurrogate (n : Nat) : Bool := 0xd800 ≤ n && n < 0xdc00

/-- The second half of a surrogate pair. -/
def isLowSurrogate (n : Nat) : Bool := 0xdc00 ≤ n && n < 0xe000

/-- The character of a surrogate pair. -/
def pairChar (high low : Nat) : Char :=
  .ofNat (0x10000 + (high - 0xd800) * 0x400 + (low - 0xdc00))

/-- The character of a code point, the replacement for a lone surrogate. -/
def pointChar (n : Nat) : Char :=
  if isHighSurrogate n || isLowSurrogate n then replacement else .ofNat n

/-- The numbers that the pairs of bytes form, a last single byte left out. -/
def pairValues (bigEndian : Bool) : Bytes → List Nat
  | a :: b :: rest => pairValue bigEndian a b :: pairValues bigEndian rest
  | _ => []

/-- The characters of a sequence of units, pairs of surrogates joined. -/
def joinSurrogates : List Nat → List Char
  | [] => []
  | [unit] => [pointChar unit]
  | unit :: next :: rest =>
      if isHighSurrogate unit && isLowSurrogate next then
        pairChar unit next :: joinSurrogates rest
      else pointChar unit :: joinSurrogates (next :: rest)

/-- Decode pairs of bytes that start at a position; only a last single byte
is at fault. -/
def decodeUtf16 (bigEndian : Bool) (position : Nat) (bytes : Bytes) :
    Except Fault (List Char) :=
  match bytes.getLast? with
  | some last =>
      if bytes.length % 2 = 1 then
        .error ⟨position + bytes.length - 1, 1, last, .truncatedData⟩
      else .ok (joinSurrogates (pairValues bigEndian bytes))
  | none => .ok []

/-- Decode groups of four bytes from a position on. -/
def decodeUtf32 (bigEndian : Bool) : Nat → Bytes → Except Fault (List Char)
  | _, [] => .ok []
  | position, a :: b :: c :: d :: rest =>
      let point := quadValue bigEndian a b c d
      if point < 0x110000 then do
        return pointChar point ::
          (← decodeUtf32 bigEndian (position + 4) rest)
      else .error ⟨position, 4, a, .beyondRange⟩
  | position, a :: rest => .error ⟨position, rest.length + 1, a, .truncatedData⟩

/-- A document that cannot be decoded. -/
structure DecodeError where
  charset : Charset
  fault : Fault
deriving DecidableEq, Repr

/-- The wording of a document that cannot be decoded. -/
def DecodeError.message (e : DecodeError) : String :=
  let f := e.fault
  let place :=
    if f.count = 1 then
      "byte 0x" ++ String.ofList (Text.hexDigits 2 f.firstByte.toNat) ++
        " in position " ++ Text.natText f.position
    else
      "bytes in position " ++ Text.natText f.position ++ "-" ++
        Text.natText (f.position + f.count - 1)
  "'" ++ e.charset.name ++ "' codec can't decode " ++ place ++ ": " ++
    f.reason.text

/-- The text of a document. Positions count from the first byte, except that
those of UTF-8 count from the end of the byte order mark. -/
def decodeDocument (bytes : Bytes) : Except DecodeError (List Char) :=
  let (charset, mark) := detect bytes
  let body := bytes.drop mark
  let result :=
    match charset with
    | .utf8 => Utf8.decodeLenientFrom 0 0 body
    | .utf16 bigEndian => decodeUtf16 bigEndian mark body
    | .utf32 bigEndian => decodeUtf32 bigEndian mark body
  match result with
  | .ok cs => .ok cs
  | .error fault => .error ⟨charset, fault⟩

end TableGate.Encoding
