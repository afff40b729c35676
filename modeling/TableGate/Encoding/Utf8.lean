import TableGate.Value.Basic

/-!
# UTF-8

A character is a lead byte followed by zero to three tail bytes. The lead
fixes the number of tails and the range of the first of them, which rules out
overlong forms, surrogates and code points beyond the last one.

A byte sequence that is not UTF-8 is faulty at its first maximal invalid part:
a byte that cannot lead, a lead with the tails that fit before one that does
not, or a character cut off by the end. `decodeLossy` puts one replacement
character in the place of each such part; `decode` reports the first.
-/

namespace TableGate.Encoding

/-- Why a part of a byte sequence is not text. -/
inductive Reason
  | invalidStartByte
  | invalidContinuationByte
  | unexpectedEnd
  | truncatedData
  | beyondRange
deriving DecidableEq, Repr

/-- The wording of a reason. -/
def Reason.text : Reason → String
  | .invalidStartByte => "invalid start byte"
  | .invalidContinuationByte => "invalid continuation byte"
  | .unexpectedEnd => "unexpected end of data"
  | .truncatedData => "truncated data"
  | .beyondRange => "code point not in range(0x110000)"

/-- A part of a byte sequence that is not text. -/
structure Fault where
  position : Nat
  count : Nat
  firstByte : UInt8
  reason : Reason
deriving DecidableEq, Repr

/-- The character that stands for what cannot be decoded. -/
def replacement : Char := '\ufffd'

namespace Utf8

/-- What a lead byte announces: the number of tails, the range of the first
one, and the bits the lead contributes. -/
structure Lead where
  tails : Nat
  low : Nat
  high : Nat
  bits : Nat

/-- What a byte from 0x80 upwards announces as a lead. -/
def lead? (b : Nat) : Option Lead :=
  if b < 0xc2 then none
  else if b < 0xe0 then some ⟨1, 0x80, 0xbf, b - 0xc0⟩
  else if b = 0xe0 then some ⟨2, 0xa0, 0xbf, 0⟩
  else if b = 0xed then some ⟨2, 0x80, 0x9f, 0xd⟩
  else if b < 0xf0 then some ⟨2, 0x80, 0xbf, b - 0xe0⟩
  else if b = 0xf0 then some ⟨3, 0x90, 0xbf, 0⟩
  else if b < 0xf4 then some ⟨3, 0x80, 0xbf, b - 0xf0⟩
  else if b = 0xf4 then some ⟨3, 0x80, 0x8f, 4⟩
  else none

/-- Read tails, the first of them in the given range. The result is the code
point, or why and after how many bytes of the character it fails. -/
def readTails : Nat → Nat → Nat → Nat → Nat → Bytes →
    Except (Reason × Nat) Nat
  | 0, _, _, point, _, _ => .ok point
  | _ + 1, _, _, _, taken, [] => .error (.unexpectedEnd, taken)
  | tails + 1, low, high, point, taken, b :: rest =>
      if low ≤ b.toNat ∧ b.toNat ≤ high then
        readTails tails 0x80 0xbf (point * 64 + (b.toNat - 0x80)) (taken + 1)
          rest
      else .error (.invalidContinuationByte, taken)

/-- Read the character at the front: the character and the number of its
tails, or why and over how many bytes there is none. -/
def readChar (b : UInt8) (rest : Bytes) : Except (Reason × Nat) (Char × Nat) :=
  if b.toNat < 0x80 then .ok (.ofNat b.toNat, 0)
  else
    match lead? b.toNat with
    | none => .error (.invalidStartByte, 1)
    | some lead => do
        let point ← readTails lead.tails lead.low lead.high lead.bits 1 rest
        return (.ofNat point, lead.tails)

/-- Decode from a position on, the first `skip` bytes being tails of the
character before. -/
def decodeFrom : Nat → Nat → Bytes → Except Fault (List Char)
  | _, _, [] => .ok []
  | position, skip + 1, _ :: rest => decodeFrom (position + 1) skip rest
  | position, 0, b :: rest =>
      match readChar b rest with
      | .error (reason, count) => .error ⟨position, count, b, reason⟩
      | .ok (c, tails) => do
          return c :: (← decodeFrom (position + 1) tails rest)

/-- The text of a byte sequence, or its first invalid part. -/
def decode (bytes : Bytes) : Except Fault (List Char) := decodeFrom 0 0 bytes

/-- Decode with a replacement character for each invalid part, the first
`skip` bytes being settled already. -/
def decodeLossyFrom : Nat → Bytes → List Char
  | _, [] => []
  | skip + 1, _ :: rest => decodeLossyFrom skip rest
  | 0, b :: rest =>
      match readChar b rest with
      | .error (_, count) => replacement :: decodeLossyFrom (count - 1) rest
      | .ok (c, tails) => c :: decodeLossyFrom tails rest

/-- The text of a byte sequence, each invalid part replaced. -/
def decodeLossy (bytes : Bytes) : List Char := decodeLossyFrom 0 bytes

/-- Whether the bytes at the front are the three-byte form of a surrogate. -/
def startsWithSurrogate (b : UInt8) (rest : Bytes) : Bool :=
  match rest with
  | c :: d :: _ =>
      b == 0xed && 0xa0 ≤ c.toNat && c.toNat ≤ 0xbf &&
        0x80 ≤ d.toNat && d.toNat ≤ 0xbf
  | _ => false

/-- Decode as `decodeFrom` does, but let the three-byte form of a surrogate
pass as one replacement character. -/
def decodeLenientFrom : Nat → Nat → Bytes → Except Fault (List Char)
  | _, _, [] => .ok []
  | position, skip + 1, _ :: rest => decodeLenientFrom (position + 1) skip rest
  | position, 0, b :: rest =>
      if startsWithSurrogate b rest then do
        return replacement :: (← decodeLenientFrom (position + 1) 2 rest)
      else
        match readChar b rest with
        | .error (reason, count) => .error ⟨position, count, b, reason⟩
        | .ok (c, tails) => do
            return c :: (← decodeLenientFrom (position + 1) tails rest)

/-- The tail byte that carries the last six bits of a number. -/
def tailByte (n : Nat) : UInt8 := .ofNat (0x80 + n % 64)

/-- The bytes of a character. -/
def encodeChar (c : Char) : Bytes :=
  let n := c.toNat
  if n < 0x80 then [.ofNat n]
  else if n < 0x800 then [.ofNat (0xc0 + n / 64), tailByte n]
  else if n < 0x10000 then
    [.ofNat (0xe0 + n / 4096), tailByte (n / 64), tailByte n]
  else
    [.ofNat (0xf0 + n / 262144), tailByte (n / 4096), tailByte (n / 64),
      tailByte n]

/-- The bytes of a text. -/
def encode (cs : List Char) : Bytes := cs.flatMap encodeChar

end Utf8
end TableGate.Encoding
